import TokioTquic.Abandon
import TokioTquic.References
import TokioTquic.Async.Work

/-!
# Every request is answered

The values of all connections that wait for a reply: of `connect`, of `open_bi` or
`open_uni`, of a `read`. For each of them a command is in the queue that the reply
will come from, so the bridge answers them all by itself.
-/

namespace TokioTquic
open Async
set_option autoImplicit false

universe u
variable {κ : Type u} {χ ψ : Type}

/-- The value has sent a command and has no reply yet. -/
def Value.Waits : Value → Prop
  | .connecting ⟨some none, none, _⟩ => True
  | .openStream ⟨_, _, some none⟩ => True
  | .recvStream _ (some (_, none)) => True
  | _ => False

/-- The command's reply is the one the value `id` waits for. -/
inductive Value.AnsweredBy (id : Nat) : Value → BridgeCommand χ ψ Respond → Prop where
  | connect (remoteAddr addr : SocketAddr) (serverName : String) (clientConfig : Option χ)
      (n : Nat) :
      Value.AnsweredBy id (.connecting ⟨some none, none, remoteAddr⟩)
        (.connect addr serverName clientConfig (id, n))
  | openBi (connId n : Nat) :
      Value.AnsweredBy id (.openStream ⟨.bi, connId, some none⟩)
        (.onConn connId (.openBiStream (id, n)))
  | openUni (connId n : Nat) :
      Value.AnsweredBy id (.openStream ⟨.uni, connId, some none⟩)
        (.onConn connId (.openUniStream (id, n)))
  | read (self : RecvStream) (n maxLen : Nat) :
      Value.AnsweredBy id (.recvStream self (some (n, none)))
        (.onConn self.connId (.streamRead self.streamId maxLen (id, n)))

/-- The bridge thread takes a command; whatever `endpoint.connect` answers. -/
def HandlesEvent.Processes : HandlesEvent κ χ ψ → Prop
  | .process _ => True
  | _ => False

namespace Handles

def Covered (s : Handles κ χ ψ) (id : Nat) (v : Value) : Prop :=
  v.Waits → ∃ x ∈ s.queue, v.AnsweredBy id x.2

/-- Every value that waits is going to be answered. -/
def Pending (s : Handles κ χ ψ) : Prop :=
  ∀ id h, s.values id = some h → s.Covered id h.value

/-- From `s` to `t` the queue grows, and a value that is new or was changed is covered. -/
structure Asks (s t : Handles κ χ ψ) : Prop where
  queue : ∃ more, t.queue = s.queue ++ more
  values : ∀ id h, t.values id = some h → s.values id = some h ∨ t.Covered id h.value

theorem Covered.quiet {s : Handles κ χ ψ} {id : Nat} {v : Value} (hv : ¬ v.Waits) :
    s.Covered id v := fun h => absurd h hv

theorem Covered.grow {s t : Handles κ χ ψ} {id : Nat} {v : Value} (h : s.Covered id v)
    {more : List (Option Nat × BridgeCommand χ ψ Respond)} (hqueue : t.queue = s.queue ++ more) :
    t.Covered id v := by
  intro hwaits
  obtain ⟨x, hx, hanswered⟩ := h hwaits
  refine ⟨x, ?_, hanswered⟩
  rw [hqueue]
  exact List.mem_append_left _ hx

theorem Pending.asks {s t : Handles κ χ ψ} (hs : s.Pending) (h : Asks s t) : t.Pending := by
  intro id g hg
  obtain ⟨more, hmore⟩ := h.queue
  rcases h.values id g hg with hold | hnew
  · exact (hs id g hold).grow hmore
  · exact hnew

namespace Asks
variable {s t t' : Handles κ χ ψ}

theorem refl (s : Handles κ χ ψ) : Asks s s :=
  ⟨⟨[], (List.append_nil _).symm⟩, fun _ _ h => Or.inl h⟩

theorem same (h : Asks s t) (hqueue : t'.queue = t.queue) (hvalues : t'.values = t.values) :
    Asks s t' := by
  refine ⟨?_, ?_⟩
  · rw [hqueue]
    exact h.queue
  · intro id g hg
    rw [hvalues] at hg
    apply (h.values id g hg).imp_right
    intro hcovered
    have hnone : t'.queue = t.queue ++ [] := by
      rw [hqueue, List.append_nil]
    exact hcovered.grow hnone

theorem modifyNotify (h : Asks s t) (uid : Nat) (f : ConnNotify → ConnNotify) :
    Asks s (t.modifyNotify uid f) := h.same rfl rfl

theorem enqueue (h : Asks s t) {x : Option Nat × BridgeCommand χ ψ Respond}
    (hqueue : t'.queue = t.queue ++ [x]) (hvalues : t'.values = t.values) : Asks s t' := by
  obtain ⟨more, hmore⟩ := h.queue
  refine ⟨⟨more ++ [x], ?_⟩, ?_⟩
  · rw [hqueue, hmore, List.append_assoc]
  · intro id g hg
    rw [hvalues] at hg
    apply (h.values id g hg).imp_right
    intro hcovered
    exact hcovered.grow hqueue

theorem send (h : Asks s t) (origin : Option Nat) (connId : Nat) (cmd : ConnCommand Respond) :
    Asks s (t.send origin connId cmd) := h.enqueue rfl rfl

theorem setValue (h : Asks s t) (id : Nat) {v : Option Handle}
    (hv : ∀ g, v = some g → t.Covered id g.value) : Asks s (t.setValue id v) := by
  refine ⟨h.queue, fun i g hg => ?_⟩
  by_cases hi : i = id
  · subst hi
    have hvg : v = some g := by simpa [Handles.setValue] using hg
    exact Or.inr (hv g hvg)
  · exact h.values i g (by simpa [Handles.setValue, hi] using hg)

theorem drop (h : Asks s t) (id : Nat) : Asks s (t.setValue id none) :=
  h.setValue id fun g hg => by cases hg

theorem put (h : Asks s t) (id : Nat) {g : Handle} (hg : ¬ g.value.Waits) :
    Asks s (t.setValue id (some g)) := by
  apply h.setValue id
  intro g' hg'
  cases hg'
  exact .quiet hg

theorem add (h : Asks s t) {g : Handle} (hg : ¬ g.value.Waits) : Asks s (t.add g) :=
  (h.put t.next hg).same rfl rfl

theorem ask (h : Asks s t) (id : Nat) {g : Handle} {origin : Option Nat} {connId : Nat}
    {cmd : ConnCommand Respond}
    (hg : g.value.AnsweredBy id (.onConn connId cmd : BridgeCommand χ ψ Respond)) :
    Asks s ((t.setValue id (some g)).send origin connId cmd) := by
  obtain ⟨more, hmore⟩ := h.queue
  have hqueue : ((t.setValue id (some g)).send origin connId cmd).queue =
      t.queue ++ [(origin, .onConn connId cmd)] := rfl
  refine ⟨⟨more ++ [(origin, .onConn connId cmd)], ?_⟩, fun i g' hg' => ?_⟩
  · rw [hqueue, hmore, List.append_assoc]
  · by_cases hi : i = id
    · subst hi
      obtain rfl : g = g' := by simpa [Handles.setValue, Handles.send] using hg'
      refine Or.inr fun _ => ⟨(origin, .onConn connId cmd), ?_, hg⟩
      rw [hqueue]
      exact List.mem_append_right _ (List.mem_singleton.mpr rfl)
    · have hold : t.values i = some g' := by simpa [Handles.setValue, Handles.send, hi] using hg'
      apply (h.values i g' hold).imp_right
      intro hcovered
      exact hcovered.grow hqueue

theorem addHalves (h : Asks s t) (origin : Option Nat) (connId streamId : Nat)
    (send recv : Bool) : Asks s (t.addHalves origin connId streamId send recv) := by
  cases send <;> cases recv
  · exact h
  · exact h.add (fun hw => hw)
  · exact h.add (fun hw => hw)
  · refine (h.add ?_).add (fun hw => hw)
    exact fun hw => hw

end Asks

/-! ## What a value is used for -/

section
variable {s t : Handles κ χ ψ} {id : Nat}

theorem pollEstablished_asks (h : Asks s t) (origin : Option Nat) (connId : Nat) :
    Asks s (t.pollEstablished id origin connId) := by
  unfold pollEstablished
  split
  · exact h
  · simp only
    split
    · exact h.add (fun hw => hw)
    · split
      · exact h
      · exact h.same rfl rfl

theorem pollConnecting_asks (origin : Option Nat) (self : Connecting) :
    Asks s (s.pollConnecting id origin self) := by
  unfold pollConnecting
  split
  · exact pollEstablished_asks (.refl s) _ _
  · split
    · refine pollEstablished_asks ((Asks.refl s).put id ?_) _ _
      exact fun hw => hw
    · exact .refl s

theorem pollOpen_asks (origin : Option Nat) (self : OpenStream) :
    Asks s (s.pollOpen id origin self) := by
  have hgone : Asks s (s.setValue id none) := (Asks.refl s).drop id
  unfold pollOpen
  split
  · split
    · exact hgone
    · obtain ⟨dir, connId, rx⟩ := self
      cases dir with
      | bi => exact (Asks.refl s).ask id (.openBi connId s.next)
      | uni => exact (Asks.refl s).ask id (.openUni connId s.next)
  · exact .refl s
  · exact hgone.addHalves _ _ _ _ _
  · exact hgone

theorem pollAccept_asks (origin : Option Nat) (self : AcceptStream) (branch : Branch) :
    Asks s (s.pollAccept id origin self branch) := by
  have hgone : Asks s (s.setValue id none) := (Asks.refl s).drop id
  unfold pollAccept
  split
  · split
    · exact hgone
    · exact (Asks.refl s).put id (fun hw => hw)
  · cases branch with
    | closed =>
      simp only
      split
      · exact hgone
      · exact .refl s
    | recv =>
      simp only
      split
      · exact .refl s
      · exact (hgone.modifyNotify _ _).addHalves _ _ _ _ _

theorem finish_asks (origin : Option Nat) (self : SendStream) :
    Asks s (s.finish id origin self) := by
  unfold finish
  split
  · exact .refl s
  · refine ((Asks.refl s).put id ?_).send _ _ _
    exact fun hw => hw

theorem stop_asks (origin : Option Nat) (self : RecvStream) (errorCode : VarInt) :
    Asks s (s.stop id origin self errorCode) := by
  unfold stop
  split
  · exact .refl s
  · refine ((Asks.refl s).put id ?_).send _ _ _
    exact fun hw => hw

theorem dropValue_asks (origin : Option Nat) (v : Value) : Asks s (s.dropValue id origin v) := by
  cases v with
  | sendStream self => exact (finish_asks origin self).drop id
  | recvStream self rx => exact (stop_asks origin self _).drop id
  | _ => exact (Asks.refl s).drop id

theorem useSend_asks {origin : Option Nat} {self : SendStream} {op : Op}
    (h : s.useSend id origin self op = some t) : Asks s t := by
  cases op <;> simp only [useSend] at h
  case write data =>
    split at h <;> cases h
    · exact .refl s
    · exact (Asks.refl s).send _ _ _
  case finish =>
    cases h
    exact finish_asks _ _
  case reset errorCode =>
    split at h <;> cases h
    · exact .refl s
    · refine ((Asks.refl s).put id ?_).send _ _ _
      exact fun hw => hw
  case setPriority priority =>
    split at h <;> cases h
    · exact .refl s
    · exact (Asks.refl s).send _ _ _
  all_goals cases h

theorem useRecv_asks {origin : Option Nat} {self : RecvStream}
    {rx : Option (Nat × Option (Except ReadError (Bytes × Bool)))} {op : Op}
    (h : s.useRecv id origin self rx op = some t) : Asks s t := by
  cases op <;> simp only [useRecv] at h
  case read maxLen =>
    split at h <;> cases h
    · exact .refl s
    · exact (Asks.refl s).ask id (.read self s.next maxLen)
  case pollRead maxLen =>
    split at h <;> cases h
    · exact .refl s
    · refine ((Asks.refl s).put id ?_).send _ _ _
      exact fun hw => hw
  case onReply =>
    split at h <;> cases h
    exact (Asks.refl s).put id (fun hw => hw)
  case stop errorCode =>
    cases h
    exact stop_asks _ _ _
  all_goals cases h

theorem useConnection_asks {origin : Option Nat} {connId : Nat} {op : Op}
    (h : s.useConnection id origin connId op = some t) : Asks s t := by
  cases op <;> simp only [useConnection] at h <;> cases h
  case clone => exact (Asks.refl s).add (fun hw => hw)
  case close => exact (Asks.refl s).send _ _ _
  case query => exact (Asks.refl s).send _ _ _
  case openStream => exact (Asks.refl s).add (fun hw => hw)
  case acceptStream => exact (Asks.refl s).add (fun hw => hw)

theorem useIncoming_asks {origin : Option Nat} {incomingId : Nat} {remoteAddr : SocketAddr}
    {op : Op} (h : s.useIncoming id origin incomingId remoteAddr op = some t) : Asks s t := by
  cases op <;> simp only [useIncoming] at h <;> cases h
  case accept =>
    have hput :
        Asks s (s.setValue id (some ⟨origin, .connecting ⟨none, some incomingId, remoteAddr⟩⟩)) :=
      (Asks.refl s).put id (fun hw => hw)
    exact hput.enqueue rfl rfl
  case refuse => exact ((Asks.refl s).drop id).send _ _ _

theorem useValue_asks {h : Handle} {op : Op} (hstep : s.useValue id h op = some t) :
    Asks s t := by
  unfold useValue at hstep
  split at hstep
  · cases hstep
    exact dropValue_asks _ _
  · split at hstep <;> cases hstep
    · exact pollConnecting_asks _ _
    · exact pollOpen_asks _ _
    · exact pollAccept_asks _ _ _
  · split at hstep
    · exact useIncoming_asks hstep
    · exact useConnection_asks hstep
    · exact useSend_asks hstep
    · exact useRecv_asks hstep
    · cases hstep

end

/-! ## The bridge thread -/

/-- What the thread makes of a value: it is as before, or it has its reply now. -/
structure Serves (s t : Handles κ χ ψ) (cmd : BridgeCommand χ ψ Respond) : Prop where
  gone : ∀ id, s.values id = none → t.values id = none
  kept : ∀ id h, s.values id = some h → ∃ h', t.values id = some h' ∧
    (h' = h ∨ ∃ uid n reply, h' = h.deliver uid n reply) ∧
    (h.value.AnsweredBy id cmd → ¬ h'.value.Waits)

theorem Serves.quiet {s t : Handles κ χ ψ} {cmd : BridgeCommand χ ψ Respond}
    (hvalues : t.values = s.values) (hcmd : ∀ (v : Value) id, ¬ v.AnsweredBy id cmd) :
    Serves s t cmd := by
  refine ⟨fun id hid => ?_, fun id h hid => ⟨h, ?_, Or.inl rfl, fun ha => ?_⟩⟩
  · rw [hvalues]
    exact hid
  · rw [hvalues]
    exact hid
  · exact absurd ha (hcmd _ _)

theorem Serves.deliver {s u : Handles κ χ ψ} {cmd : BridgeCommand χ ψ Respond}
    (hvalues : u.values = s.values) (uid : Option Nat) {x : Option (Respond × Reply)}
    (hx : ∀ id (h : Handle), h.value.AnsweredBy id cmd → ∃ n reply, x = some ((id, n), reply) ∧
      ¬ (h.deliver uid n reply).value.Waits) : Serves s (u.deliver uid x) cmd := by
  refine ⟨fun id hid => ?_, fun id h hid => ?_⟩
  · obtain ⟨-, hsame | ⟨n, reply, h, -, hold, -⟩⟩ := u.deliver_values uid x id
    · rw [hsame, hvalues]
      exact hid
    · rw [hvalues, hid] at hold
      cases hold
  · rw [← hvalues] at hid
    by_cases ha : h.value.AnsweredBy id cmd
    · obtain ⟨n, reply, rfl, hdone⟩ := hx id h ha
      refine ⟨h.deliver uid n reply, ?_, Or.inr ⟨uid, n, reply, rfl⟩, fun _ => hdone⟩
      simp [Handles.deliver, hid, Handles.setValue]
    · obtain ⟨-, hsame | ⟨n, reply, g, -, hold, hnew⟩⟩ := u.deliver_values uid x id
      · exact ⟨h, hsame.trans hid, Or.inl rfl, fun h' => absurd h' ha⟩
      · obtain rfl := Option.some.inj (hid.symm.trans hold)
        exact ⟨_, hnew, Or.inr ⟨uid, n, reply, rfl⟩, fun h' => absurd h' ha⟩

theorem reply_ends {T : Tquic κ} {conn : Option κ} {index : Nat} {cmd : ConnCommand Respond}
    {h : Handle} {id : Nat}
    (ha : h.value.AnsweredBy id (.onConn index cmd : BridgeCommand χ ψ Respond)) :
    ∃ n reply, (processConnCommand T conn cmd).2 = some ((id, n), reply) ∧
      ¬ (h.deliver none n reply).value.Waits := by
  obtain ⟨origin, v⟩ := h
  cases ha with
  | openBi connId n => exact ⟨n, _, rfl, fun hw => hw⟩
  | openUni connId n => exact ⟨n, _, rfl, fun hw => hw⟩
  | read self n maxLen =>
    refine ⟨n, _, rfl, ?_⟩
    simp [Handle.deliver, Value.Waits]

theorem processOnConn_serves (T : Tquic κ) (s u : Handles κ χ ψ) (hvalues : u.values = s.values)
    (index : Nat) (cmd : ConnCommand Respond) :
    Serves s (u.processOnConn T index cmd) (.onConn index cmd) ∧
      (u.processOnConn T index cmd).queue = u.queue := by
  cases hslot : u.slab index with
  | none =>
    simp only [processOnConn, hslot]
    exact ⟨.deliver hvalues none fun id h ha => reply_ends ha, (deliver_frame _ _ _).2.2.2⟩
  | some slot =>
    have hends : ∀ id (h : Handle),
        h.value.AnsweredBy id (.onConn index cmd : BridgeCommand χ ψ Respond) →
        ∃ n reply, (processConnCommand T (some slot.conn) cmd).2 = some ((id, n), reply) ∧
          ¬ (h.deliver none n reply).value.Waits := fun id h ha => reply_ends ha
    simp only [processOnConn, hslot]
    refine ⟨.deliver ?_ none hends, (deliver_frame _ _ _).2.2.2⟩
    exact hvalues

theorem connected_ends {h : Handle} {id : Nat} {addr : SocketAddr} {serverName : String}
    {clientConfig : Option χ} {respond : Respond} (uid : Option Nat)
    (result : Except ConnectError Nat)
    (ha : h.value.AnsweredBy id
      (.connect addr serverName clientConfig respond : BridgeCommand χ ψ Respond)) :
    ∃ n reply, some (respond, Reply.connected result) = some ((id, n), reply) ∧
      ¬ (h.deliver uid n reply).value.Waits := by
  obtain ⟨origin, v⟩ := h
  cases ha with
  | connect remoteAddr addr serverName clientConfig n => exact ⟨n, _, rfl, fun hw => hw⟩

theorem process_serves {T : Tquic κ} {configError : χ → Option ConnectError} {s t : Handles κ χ ψ}
    {answer : Except TquicError (NewConn κ)}
    {cmd : BridgeCommand χ ψ Respond} {queue : List (Option Nat × BridgeCommand χ ψ Respond)}
    (hcmd : { s with queue := queue }.processCommand T configError answer cmd = some t) :
    Serves s t cmd ∧ t.queue = queue := by
  cases cmd with
  | connect addr serverName clientConfig respond =>
    simp only [processCommand] at hcmd
    split at hcmd
    · rename_i new _
      obtain ⟨u, hu, rfl⟩ := Option.map_eq_some_iff.mp hcmd
      unfold create at hu
      split at hu <;> cases hu
      refine ⟨.deliver ?_ _ fun id h ha => connected_ends _ _ ha, (deliver_frame _ _ _).2.2.2⟩
      rfl
    · cases hcmd
      refine ⟨.deliver ?_ _ fun id h ha => connected_ends _ _ ha, (deliver_frame _ _ _).2.2.2⟩
      rfl
  | onConn index cmd =>
    cases hcmd
    exact processOnConn_serves T s { s with queue := queue } rfl index cmd
  | _ =>
    cases hcmd
    refine ⟨.quiet rfl fun v id ha => ?_, rfl⟩
    cases ha

theorem deliver_idle {h : Handle} (hw : ¬ h.value.Waits) (uid : Option Nat) (n : Nat)
    (reply : Reply) : h.deliver uid n reply = h := by
  unfold Handle.deliver
  split
  · rename_i hv
    rw [hv] at hw
    exact absurd trivial hw
  · rename_i hv
    rw [hv] at hw
    exact absurd trivial hw
  · rename_i hv
    rw [hv] at hw
    exact absurd trivial hw
  · rfl

theorem deliver_waits {h : Handle} {uid : Option Nat} {n : Nat} {reply : Reply}
    (hw : (h.deliver uid n reply).value.Waits) : h.deliver uid n reply = h := by
  unfold Handle.deliver at hw ⊢
  split at hw
  · exact hw.elim
  · exact hw.elim
  · split at hw
    · exact hw.elim
    · rename_i hm
      rw [if_neg hm]
  · rfl

theorem Pending.process {T : Tquic κ} {configError : χ → Option ConnectError} {s t : Handles κ χ ψ}
    {answer : Except TquicError (NewConn κ)} {origin : Option Nat}
    {cmd : BridgeCommand χ ψ Respond} {queue : List (Option Nat × BridgeCommand χ ψ Respond)}
    (hs : s.Pending) (hqueue : s.queue = (origin, cmd) :: queue)
    (hcmd : { s with queue := queue }.processCommand T configError answer cmd = some t) :
    t.Pending := by
  obtain ⟨hserves, ht⟩ := process_serves hcmd
  intro id h' hh' hwaits
  cases hid : s.values id with
  | none =>
    rw [hserves.gone id hid] at hh'
    cases hh'
  | some h =>
    obtain ⟨g, hg, hsame, hends⟩ := hserves.kept id h hid
    obtain rfl := Option.some.inj (hg.symm.trans hh')
    have heq : g = h := by
      rcases hsame with heq | ⟨uid, n, reply, rfl⟩
      · exact heq
      · exact deliver_waits hwaits
    subst heq
    obtain ⟨x, hx, ha⟩ := hs id g hid hwaits
    rw [hqueue] at hx
    rcases List.mem_cons.mp hx with rfl | hx
    · exact absurd hwaits (hends ha)
    · refine ⟨x, ?_, ha⟩
      rw [ht]
      exact hx

theorem pending_step {T : Tquic κ} {configError : χ → Option ConnectError} {s t : Handles κ χ ψ}
    {e : HandlesEvent κ χ ψ} (hs : s.Pending) (hstep : s.step T configError e = some t) :
    t.Pending := by
  have hsame : t.queue = s.queue → t.values = s.values → t.Pending :=
    fun hqueue hvalues => hs.asks ((Asks.refl s).same hqueue hvalues)
  cases step_inv hstep with
  | connCreated h =>
    unfold create at h
    split at h <;> cases h
    exact hsame rfl rfl
  | callback | closed | engine | release | refused => exact hsame rfl rfl
  | process hqueue hcmd => exact hs.process hqueue hcmd
  | connect hopen =>
    rename_i addr serverName clientConfig
    have hsend : Asks s (s.sendEndpoint (.connect addr serverName clientConfig (s.next, s.next))) :=
      (Asks.refl s).enqueue rfl rfl
    have hput : Asks s ((s.sendEndpoint (.connect addr serverName clientConfig
        (s.next, s.next))).setValue s.next (some ⟨none, .connecting ⟨some none, none, addr⟩⟩)) := by
      apply hsend.setValue
      intro g hg hwaits
      cases hg
      exact ⟨_, List.mem_append_right _ (List.mem_singleton.mpr rfl),
        .connect addr addr serverName clientConfig s.next⟩
    exact hs.asks (hput.same rfl rfl)
  | setDefaultClientConfig | setServerConfig | closeEndpoint =>
    exact hs.asks ((Asks.refl s).enqueue rfl rfl)
  | accept hopen hincoming =>
    rename_i uid data incoming
    have hpop : Asks s { s with handle := { s.handle with incoming := incoming } } :=
      (Asks.refl s).same rfl rfl
    exact hs.asks (hpop.add fun hw => hw)
  | use hh huse => exact hs.asks (useValue_asks huse)

theorem pending_init (isServer : Bool) : (init isServer : Handles κ χ ψ).Pending := by
  intro id h hid
  simp [init] at hid

structure Progressed (s t : Handles κ χ ψ) (taken : Nat) : Prop where
  queue : taken + t.queue.length = s.queue.length
  kept : ∀ id h, s.values id = some h → ∃ h', t.values id = some h' ∧
    (h' = h ∨ h.value.Waits ∧ ¬ h'.value.Waits ∧ ∃ uid n reply, h' = h.deliver uid n reply)

theorem process_cons {T : Tquic κ} {configError : χ → Option ConnectError} {s t : Handles κ χ ψ}
    {e : HandlesEvent κ χ ψ} (he : e.Processes) (hstep : s.step T configError e = some t) :
    ∃ origin cmd queue, s.queue = (origin, cmd) :: queue ∧ Serves s t cmd ∧ t.queue = queue := by
  cases step_inv hstep with
  | process hqueue hcmd =>
    obtain ⟨hserves, ht⟩ := process_serves hcmd
    exact ⟨_, _, _, hqueue, hserves, ht⟩
  | _ => exact he.elim

theorem processes_works (T : Tquic κ) (configError : χ → Option ConnectError) :
    Works (step T configError) HandlesEvent.Processes
      (fun s : Handles κ χ ψ => s.queue.length) := by
  intro s e t he hstep
  obtain ⟨origin, cmd, queue, hqueue, -, ht⟩ := process_cons he hstep
  have hshorter : t.queue.length + 1 = s.queue.length := by rw [hqueue, ht, List.length_cons]
  exact Nat.lt_of_succ_le (Nat.le_of_eq hshorter)

theorem progressed_run {T : Tquic κ} {configError : χ → Option ConnectError}
    {es : List (HandlesEvent κ χ ψ)} (hes : ∀ e ∈ es, e.Processes) :
    ∀ {s t : Handles κ χ ψ}, run (step T configError) s es = some t →
      Progressed s t es.length := by
  induction es with
  | nil =>
    intro s t hrun
    obtain rfl : s = t := by simpa [run] using hrun
    exact ⟨Nat.zero_add _, fun id h hid => ⟨h, hid, Or.inl rfl⟩⟩
  | cons e es ih =>
    intro s t hrun
    cases hstep : step T configError s e with
    | none => simp [run, hstep] at hrun
    | some u =>
      have hrest : run (step T configError) u es = some t := by simpa [run, hstep] using hrun
      obtain ⟨origin, cmd, queue, hqueue, hserves, hu⟩ :=
        process_cons (hes e List.mem_cons_self) hstep
      obtain ⟨hlength, hkept⟩ := ih (fun e he => hes e (List.mem_cons_of_mem _ he)) hrest
      refine ⟨?_, fun id h hid => ?_⟩
      · rw [hqueue, List.length_cons, List.length_cons, ← hu]
        omega
      · obtain ⟨g, hg, hsame, -⟩ := hserves.kept id h hid
        obtain ⟨h', hh', hlater⟩ := hkept id g hg
        refine ⟨h', hh', ?_⟩
        have hstay : g = h ∨ h.value.Waits ∧ ¬ g.value.Waits ∧
            ∃ uid n reply, g = h.deliver uid n reply := by
          rcases hsame with heq | ⟨uid, n, reply, rfl⟩
          · exact Or.inl heq
          · by_cases hg' : (h.deliver uid n reply).value.Waits
            · exact Or.inl (deliver_waits hg')
            · by_cases hw : h.value.Waits
              · exact Or.inr ⟨hw, hg', uid, n, reply, rfl⟩
              · exact Or.inl (deliver_idle hw uid n reply)
        rcases hstay with rfl | ⟨hw, hg', hdelivered⟩
        · exact hlater
        · rcases hlater with rfl | ⟨hwaits, -⟩
          · exact Or.inr ⟨hw, hg', hdelivered⟩
          · exact absurd hwaits hg'

theorem quiet_empty {T : Tquic κ} {configError : χ → Option ConnectError} {s : Handles κ χ ψ}
    (hquiet : Quiet (step T configError) HandlesEvent.Processes s) : s.queue = [] := by
  cases hqueue : s.queue with
  | nil => rfl
  | cons x queue =>
    obtain ⟨t, ht, -⟩ := Owners.process_next T configError hqueue
    have hnone := hquiet (.process (.error .done)) trivial
    simp only [step] at hnone
    rw [ht] at hnone
    cases hnone

/-- Whatever the program has asked for on all its connections, the thread by itself comes
to answer: it takes the commands that are queued and no more, each value that waits then
has its reply, and the other values are as they were. -/
theorem requests_answered (T : Tquic κ) (configError : χ → Option ConnectError)
    (isServer : Bool) (s : Handles κ χ ψ)
    (hs : Reach (step T configError) Any (init isServer) s) :
    (∃ t, Reach (step T configError) (fun _ => HandlesEvent.Processes) s t ∧
      Quiet (step T configError) HandlesEvent.Processes t) ∧
    ∀ es t, (∀ e ∈ es, HandlesEvent.Processes e) → run (step T configError) s es = some t →
      es.length ≤ s.queue.length ∧
      (Quiet (step T configError) HandlesEvent.Processes t → es.length = s.queue.length ∧
        ∀ id h, s.values id = some h →
          (h.value.Waits ∧ ∃ h', t.values id = some h' ∧ ¬ h'.value.Waits ∧
            ∃ uid n reply, h' = h.deliver uid n reply) ∨
          (¬ h.value.Waits ∧ t.values id = some h)) := by
  refine ⟨(processes_works T configError).reach_quiet s, fun es t hes hrun => ?_⟩
  have hprogressed := progressed_run hes hrun
  have hlength := hprogressed.queue
  refine ⟨by omega, fun hquiet => ?_⟩
  have hempty := quiet_empty hquiet
  have hpending : t.Pending := by
    apply (hs.trans (reach_any_of_run hrun)).invariant _ (pending_init isServer)
    intro u e v hu _ hstep
    exact pending_step hu hstep
  refine ⟨?_, fun id h hid => ?_⟩
  · rw [hempty, List.length_nil] at hlength
    exact hlength
  · obtain ⟨h', hh', hcase⟩ := hprogressed.kept id h hid
    have hdone : ¬ h'.value.Waits := by
      intro hw
      obtain ⟨x, hx, -⟩ := hpending id h' hh' hw
      rw [hempty] at hx
      cases hx
    rcases hcase with rfl | ⟨hw, -, hdelivered⟩
    · exact Or.inr ⟨hdone, hh'⟩
    · exact Or.inl ⟨hw, h', hh', hdone, hdelivered⟩

/-- On one connection a stream is being opened, and a second one is being made. -/
def pendingRun : List (HandlesEvent Script Unit Unit) :=
  [.connect .unspecified "one" none, .process (.ok ⟨0, { opens := [0] }, none⟩),
    .callback 0 .onConnEstablished, .use 0 (.poll .recv), .use 1 (.openStream .bi),
    .use 2 (.poll .recv), .connect .unspecified "two" none]

theorem requests_answered_two :
    ∃ s t : Handles Script Unit Unit,
      run (step Tquic.scripted fun _ => none) (init false) pendingRun = some s ∧
      run (step Tquic.scripted fun _ => none) s
        [.process (.error .done), .process (.ok ⟨1, {}, none⟩)] = some t ∧
      (∃ h h', s.values 2 = some h ∧ t.values 2 = some h' ∧ h.value.Waits ∧ ¬ h'.value.Waits) ∧
      ∃ h h', s.values 4 = some h ∧ t.values 4 = some h' ∧ h.value.Waits ∧ ¬ h'.value.Waits := by
  obtain ⟨s, t, hs, ht, hempty, h₂, h₄, hv₂, hw₂, hv₄, hw₄⟩ : ∃ s t : Handles Script Unit Unit,
      run (step Tquic.scripted fun _ => none) (init false) pendingRun = some s ∧
      run (step Tquic.scripted fun _ => none) s
        [.process (.error .done), .process (.ok ⟨1, {}, none⟩)] = some t ∧ t.queue = [] ∧
      ∃ h₂ h₄, s.values 2 = some h₂ ∧ h₂.value.Waits ∧ s.values 4 = some h₄ ∧ h₄.value.Waits :=
    ⟨_, _, rfl, rfl, rfl, _, _, rfl, trivial, rfl, trivial⟩
  have hquiet : Quiet (step Tquic.scripted fun _ => none) HandlesEvent.Processes t := by
    intro e he
    cases e with
    | process answer => simp [step, Handles.process, hempty]
    | _ => exact he.elim
  have hanswered := (requests_answered Tquic.scripted (fun _ => none) false s
    (reach_any_of_run hs)).2 _ t (by simp [HandlesEvent.Processes]) ht
  have hdone := (hanswered.2 hquiet).2
  refine ⟨s, t, hs, ht, ?_, ?_⟩
  · rcases hdone 2 h₂ hv₂ with ⟨-, h', hh', hw', -⟩ | ⟨hno, -⟩
    · exact ⟨h₂, h', hv₂, hh', hw₂, hw'⟩
    · exact absurd hw₂ hno
  · rcases hdone 4 h₄ hv₄ with ⟨-, h', hh', hw', -⟩ | ⟨hno, -⟩
    · exact ⟨h₄, h', hv₄, hh', hw₄, hw'⟩
    · exact absurd hw₄ hno

end Handles

end TokioTquic
