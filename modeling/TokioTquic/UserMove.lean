import TokioTquic.Handles

/-!
# What the user leaves alone

An operation on a value changes the values and sends commands to connections. Of
the shared state it only touches wakers and accept queues; the slab and the
default client configuration belong to the bridge thread.
-/

namespace TokioTquic
set_option autoImplicit false

universe u
variable {κ : Type u} {χ ψ : Type}

/-- The commands that operations on values send. -/
def BridgeCommand.FromValue : BridgeCommand χ ψ Respond → Prop
  | .acceptIncoming => True
  | .onConn _ _ => True
  | _ => False

/-- The parts of a `ConnNotify` that futures write. -/
def ConnNotify.Tended (cn cn' : ConnNotify) : Prop :=
  ∃ waker bi uni, cn' = { cn with establishWaker := waker, acceptBi := bi, acceptUni := uni }

theorem ConnNotify.Tended.trans {cn cn' cn'' : ConnNotify} (h : cn.Tended cn')
    (h' : cn'.Tended cn'') : cn.Tended cn'' := by
  obtain ⟨_, _, _, rfl⟩ := h
  obtain ⟨waker, bi, uni, rfl⟩ := h'
  exact ⟨waker, bi, uni, rfl⟩

namespace Handles

structure UserMove (s t : Handles κ χ ψ) : Prop where
  slab : t.slab = s.slab
  nextConn : t.nextConn = s.nextConn
  isServer : t.isServer = s.isServer
  config : t.currentClientConfig = s.currentClientConfig
  handle : t.handle = { s.handle with notifies := t.handle.notifies }
  notifies : ∀ uid, (s.handle.notifies uid).Tended (t.handle.notifies uid)
  queue : ∃ more, t.queue = s.queue ++ more ∧ ∀ x ∈ more, x.2.FromValue

namespace UserMove
variable {s t t' : Handles κ χ ψ}

theorem refl (s : Handles κ χ ψ) : UserMove s s :=
  ⟨rfl, rfl, rfl, rfl, rfl, fun _ => ⟨_, _, _, rfl⟩, [], by simp, by simp⟩

theorem setValue (h : UserMove s t) (id : Nat) (v : Option Handle) :
    UserMove s (t.setValue id v) :=
  ⟨h.slab, h.nextConn, h.isServer, h.config, h.handle, h.notifies, h.queue⟩

theorem add (h : UserMove s t) (v : Handle) : UserMove s (t.add v) :=
  ⟨h.slab, h.nextConn, h.isServer, h.config, h.handle, h.notifies, h.queue⟩

theorem enqueue (h : UserMove s t) {x : Option Nat × BridgeCommand χ ψ Respond}
    (hx : x.2.FromValue) (next : Nat) :
    UserMove s { t with queue := t.queue ++ [x], next := next } := by
  obtain ⟨more, hmore, hfrom⟩ := h.queue
  refine ⟨h.slab, h.nextConn, h.isServer, h.config, h.handle, h.notifies, more ++ [x], ?_, ?_⟩
  · rw [hmore, List.append_assoc]
  · intro y hy
    rcases List.mem_append.mp hy with hy | hy
    · exact hfrom y hy
    · rw [List.mem_singleton.mp hy]
      exact hx

theorem send (h : UserMove s t) (origin : Option Nat) (connId : Nat) (cmd : ConnCommand Respond) :
    UserMove s (t.send origin connId cmd) :=
  h.enqueue (x := (origin, .onConn connId cmd)) trivial _

theorem modifyNotify (h : UserMove s t) (uid : Nat) {f : ConnNotify → ConnNotify}
    (hf : ∀ cn : ConnNotify, cn.Tended (f cn)) : UserMove s (t.modifyNotify uid f) := by
  refine ⟨h.slab, h.nextConn, h.isServer, h.config, ?_, ?_, h.queue⟩
  · have hhandle := h.handle
    simp only [Handles.modifyNotify, BridgeHandle.modifyNotify] at hhandle ⊢
    rw [hhandle]
  · intro u
    by_cases hu : u = uid
    · subst hu
      have htended := (h.notifies u).trans (hf _)
      simpa [Handles.modifyNotify, BridgeHandle.modifyNotify] using htended
    · simpa [Handles.modifyNotify, BridgeHandle.modifyNotify, hu] using h.notifies u

theorem addHalves (h : UserMove s t) (origin : Option Nat) (connId streamId : Nat)
    (send recv : Bool) : UserMove s (t.addHalves origin connId streamId send recv) := by
  cases send <;> cases recv
  · exact h
  · exact h.add _
  · exact h.add _
  · exact (h.add _).add _

theorem pollEstablished (h : UserMove s t) (id : Nat) (origin : Option Nat) (connId : Nat) :
    UserMove s (t.pollEstablished id origin connId) := by
  unfold Handles.pollEstablished
  split
  · exact h
  · simp only
    split
    · exact h.add _
    · split
      · exact h
      · exact h.modifyNotify _ fun cn => ⟨_, _, _, rfl⟩

end UserMove

variable (s : Handles κ χ ψ) {t : Handles κ χ ψ}

theorem pollConnecting_move (id : Nat) (origin : Option Nat) (self : Connecting) :
    UserMove s (s.pollConnecting id origin self) := by
  unfold pollConnecting
  split
  · exact (UserMove.refl s).pollEstablished _ _ _
  · split
    · exact ((UserMove.refl s).setValue _ _).pollEstablished _ _ _
    · exact .refl s

theorem pollOpen_move (id : Nat) (origin : Option Nat) (self : OpenStream) :
    UserMove s (s.pollOpen id origin self) := by
  have hset : ∀ v, UserMove s (s.setValue id v) := (UserMove.refl s).setValue id
  unfold pollOpen
  split
  · split
    · exact hset _
    · exact (hset _).send _ _ _
  · exact .refl s
  · exact (hset _).addHalves _ _ _ _ _
  · exact hset _

theorem pollAccept_move (id : Nat) (origin : Option Nat) (self : AcceptStream) (branch : Branch) :
    UserMove s (s.pollAccept id origin self branch) := by
  have hset : ∀ v, UserMove s (s.setValue id v) := (UserMove.refl s).setValue id
  unfold pollAccept
  split
  · split
    · exact hset _
    · exact hset _
  · cases branch with
    | closed =>
      simp only
      split
      · exact hset _
      · exact .refl s
    | recv =>
      simp only
      split
      · exact .refl s
      · apply ((hset none).modifyNotify _ _).addHalves
        intro cn
        cases self.dir
        · exact ⟨_, _, _, rfl⟩
        · exact ⟨_, _, _, rfl⟩

theorem finish_move (id : Nat) (origin : Option Nat) (self : SendStream) :
    UserMove s (s.finish id origin self) := by
  unfold finish
  split
  · exact .refl s
  · exact ((UserMove.refl s).setValue _ _).send _ _ _

theorem stop_move (id : Nat) (origin : Option Nat) (self : RecvStream) (errorCode : VarInt) :
    UserMove s (s.stop id origin self errorCode) := by
  unfold stop
  split
  · exact .refl s
  · exact ((UserMove.refl s).setValue _ _).send _ _ _

theorem dropValue_move (id : Nat) (origin : Option Nat) (v : Value) :
    UserMove s (s.dropValue id origin v) := by
  cases v with
  | sendStream self => exact (s.finish_move id origin self).setValue _ _
  | recvStream self rx => exact (s.stop_move id origin self _).setValue _ _
  | _ => exact (UserMove.refl s).setValue _ _

variable {s}

theorem useSend_move {id : Nat} {origin : Option Nat} {self : SendStream} {op : Op}
    (h : s.useSend id origin self op = some t) : UserMove s t := by
  have hsend : ∀ v cmd, UserMove s ((s.setValue id v).send origin self.connId cmd) :=
    fun v cmd => ((UserMove.refl s).setValue id v).send _ _ _
  cases op <;> simp only [useSend] at h
  case write =>
    split at h <;> cases h
    · exact .refl s
    · exact (UserMove.refl s).send _ _ _
  case finish =>
    cases h
    exact s.finish_move _ _ _
  case reset =>
    split at h <;> cases h
    · exact .refl s
    · exact hsend _ _
  case setPriority =>
    split at h <;> cases h
    · exact .refl s
    · exact (UserMove.refl s).send _ _ _
  all_goals cases h

theorem useRecv_move {id : Nat} {origin : Option Nat} {self : RecvStream}
    {rx : Option (Nat × Option (Except ReadError (Bytes × Bool)))} {op : Op}
    (h : s.useRecv id origin self rx op = some t) : UserMove s t := by
  have hsend : ∀ v cmd, UserMove s ((s.setValue id v).send origin self.connId cmd) :=
    fun v cmd => ((UserMove.refl s).setValue id v).send _ _ _
  cases op <;> simp only [useRecv] at h
  case read =>
    split at h <;> cases h
    · exact .refl s
    · exact hsend _ _
  case pollRead =>
    split at h <;> cases h
    · exact .refl s
    · exact hsend _ _
  case onReply =>
    split at h <;> cases h
    exact (UserMove.refl s).setValue _ _
  case stop =>
    cases h
    exact s.stop_move _ _ _ _
  all_goals cases h

theorem useConnection_move {id connId : Nat} {origin : Option Nat} {op : Op}
    (h : s.useConnection id origin connId op = some t) : UserMove s t := by
  cases op <;> simp only [useConnection] at h
  case clone =>
    cases h
    exact (UserMove.refl s).add _
  case close =>
    cases h
    exact (UserMove.refl s).send _ _ _
  case query =>
    cases h
    exact (UserMove.refl s).send _ _ _
  case openStream =>
    cases h
    exact (UserMove.refl s).add _
  case acceptStream =>
    cases h
    exact (UserMove.refl s).add _
  all_goals cases h

theorem useIncoming_move {id incomingId : Nat} {origin : Option Nat} {remoteAddr : SocketAddr}
    {op : Op} (h : s.useIncoming id origin incomingId remoteAddr op = some t) :
    UserMove s t := by
  cases op <;> simp only [useIncoming] at h
  case accept =>
    cases h
    exact ((UserMove.refl s).setValue _ _).enqueue (x := (none, .acceptIncoming)) trivial _
  case refuse =>
    cases h
    exact ((UserMove.refl s).setValue _ _).send _ _ _
  all_goals cases h

theorem useValue_move {id : Nat} {h : Handle} {op : Op} (hstep : s.useValue id h op = some t) :
    UserMove s t := by
  unfold useValue at hstep
  split at hstep
  · cases hstep
    exact s.dropValue_move _ _ _
  · split at hstep <;> cases hstep
    · exact s.pollConnecting_move _ _ _
    · exact s.pollOpen_move _ _ _
    · exact s.pollAccept_move _ _ _ _
  · split at hstep
    · exact useIncoming_move hstep
    · exact useConnection_move hstep
    · exact useSend_move hstep
    · exact useRecv_move hstep
    · cases hstep

end Handles

end TokioTquic
