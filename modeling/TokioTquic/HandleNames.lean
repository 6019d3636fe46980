import TokioTquic.HandleCases

/-!
# The names of values

Values get new names, and an operation on a value leaves the others as they are.
-/

namespace TokioTquic
open Async
set_option autoImplicit false

universe u
variable {κ : Type u} {χ ψ : Type}

namespace Handles

/-- From `s` to `t` only the value `id` changes and new values come up; commands are sent. -/
structure Touches (s t : Handles κ χ ψ) (id : Nat) : Prop where
  next : s.next ≤ t.next
  others : ∀ i, i ≠ id → i < s.next → t.values i = s.values i
  fresh : ∀ i h, t.values i = some h → i < t.next ∨ (s.values i).isSome
  queue : ∃ more, t.queue = s.queue ++ more

def Named (s : Handles κ χ ψ) : Prop := ∀ id h, s.values id = some h → id < s.next

theorem Touches.refl (s : Handles κ χ ψ) (id : Nat) : Touches s s id :=
  ⟨Nat.le_refl _, fun _ _ _ => rfl, fun _ h hi => Or.inr (by simp [hi]), [], by simp⟩

theorem Touches.same {s t t' : Handles κ χ ψ} {id : Nat} (h : Touches s t id)
    (hnext : t'.next = t.next) (hvalues : t'.values = t.values) (hqueue : t'.queue = t.queue) :
    Touches s t' id := by
  refine ⟨?_, ?_, ?_, ?_⟩
  · rw [hnext]
    exact h.next
  · rw [hvalues]
    exact h.others
  · rw [hvalues, hnext]
    exact h.fresh
  · rw [hqueue]
    exact h.queue

theorem Touches.modifyNotify {s t : Handles κ χ ψ} {id : Nat} (h : Touches s t id) (uid : Nat)
    (f : ConnNotify → ConnNotify) : Touches s (t.modifyNotify uid f) id :=
  h.same rfl rfl rfl

theorem Touches.setValue {s t : Handles κ χ ψ} {id : Nat} (h : Touches s t id)
    {v : Option Handle} (hv : v = none ∨ (s.values id).isSome) : Touches s (t.setValue id v) id := by
  refine ⟨h.next, ?_, ?_, h.queue⟩
  · intro i hi hlt
    simpa [Handles.setValue, hi] using h.others i hi hlt
  · intro i g hg
    by_cases hi : i = id
    · subst hi
      rcases hv with rfl | hsome
      · simp [Handles.setValue] at hg
      · exact Or.inr hsome
    · exact h.fresh i g (by simpa [Handles.setValue, hi] using hg)

theorem Touches.add {s t : Handles κ χ ψ} {id : Nat} (h : Touches s t id) (g : Handle) :
    Touches s (t.add g) id := by
  have hnext := h.next
  refine ⟨Nat.le_succ_of_le h.next, ?_, ?_, h.queue⟩
  · intro i hi hlt
    have hne : i ≠ t.next := by omega
    simpa [Handles.add, Handles.setValue, hne] using h.others i hi hlt
  · intro i g' hg'
    by_cases hi : i = t.next
    · exact Or.inl (hi ▸ Nat.lt_succ_self _)
    · rcases h.fresh i g' (by simpa [Handles.add, Handles.setValue, hi] using hg') with hlt | hold
      · exact Or.inl (Nat.lt_succ_of_lt hlt)
      · exact Or.inr hold

theorem Touches.enqueue {s t t' : Handles κ χ ψ} {id : Nat} (h : Touches s t id)
    (x : Option Nat × BridgeCommand χ ψ Respond) (hqueue : t'.queue = t.queue ++ [x])
    (hnext : t.next ≤ t'.next) (hvalues : t'.values = t.values) : Touches s t' id := by
  obtain ⟨more, hmore⟩ := h.queue
  refine ⟨Nat.le_trans h.next hnext, ?_, ?_, more ++ [x], ?_⟩
  · rw [hvalues]
    exact h.others
  · rw [hvalues]
    intro i g hg
    rcases h.fresh i g hg with hlt | hold
    · exact Or.inl (Nat.lt_of_lt_of_le hlt hnext)
    · exact Or.inr hold
  · rw [hqueue, hmore, List.append_assoc]

theorem Touches.send {s t : Handles κ χ ψ} {id : Nat} (h : Touches s t id) (origin : Option Nat)
    (connId : Nat) (cmd : ConnCommand Respond) : Touches s (t.send origin connId cmd) id :=
  h.enqueue _ rfl (Nat.le_succ _) rfl

theorem Touches.addHalves {s t : Handles κ χ ψ} {id : Nat} (h : Touches s t id)
    (origin : Option Nat) (connId streamId : Nat) (send recv : Bool) :
    Touches s (t.addHalves origin connId streamId send recv) id := by
  cases send <;> cases recv
  · exact h
  · exact h.add _
  · exact h.add _
  · exact (h.add _).add _

/-! ## What a value is used for -/

section
variable {s t : Handles κ χ ψ} {id : Nat}

theorem pollEstablished_touches (h : Touches s t id) (origin : Option Nat) (connId : Nat) :
    Touches s (t.pollEstablished id origin connId) id := by
  unfold pollEstablished
  split
  · exact h
  · simp only
    split
    · exact h.add _
    · split
      · exact h
      · exact h.modifyNotify _ _

theorem pollConnecting_touches (hid : (s.values id).isSome) (origin : Option Nat)
    (self : Connecting) : Touches s (s.pollConnecting id origin self) id := by
  unfold pollConnecting
  split
  · exact pollEstablished_touches (.refl s id) _ _
  · split
    · exact pollEstablished_touches ((Touches.refl s id).setValue (Or.inr hid)) _ _
    · exact .refl s id

theorem pollOpen_touches (hid : (s.values id).isSome) (origin : Option Nat) (self : OpenStream) :
    Touches s (s.pollOpen id origin self) id := by
  have hgone : Touches s (s.setValue id none) id := (Touches.refl s id).setValue (Or.inl rfl)
  unfold pollOpen
  split
  · split
    · exact hgone
    · exact ((Touches.refl s id).setValue (Or.inr hid)).send _ _ _
  · exact .refl s id
  · exact hgone.addHalves _ _ _ _ _
  · exact hgone

theorem pollAccept_touches (hid : (s.values id).isSome) (origin : Option Nat)
    (self : AcceptStream) (branch : Branch) : Touches s (s.pollAccept id origin self branch) id := by
  have hgone : Touches s (s.setValue id none) id := (Touches.refl s id).setValue (Or.inl rfl)
  unfold pollAccept
  split
  · split
    · exact hgone
    · exact (Touches.refl s id).setValue (Or.inr hid)
  · cases branch with
    | closed =>
      simp only
      split
      · exact hgone
      · exact .refl s id
    | recv =>
      simp only
      split
      · exact .refl s id
      · exact (hgone.modifyNotify _ _).addHalves _ _ _ _ _

theorem finish_touches (hid : (s.values id).isSome) (origin : Option Nat) (self : SendStream) :
    Touches s (s.finish id origin self) id := by
  unfold finish
  split
  · exact .refl s id
  · exact ((Touches.refl s id).setValue (Or.inr hid)).send _ _ _

theorem stop_touches (hid : (s.values id).isSome) (origin : Option Nat) (self : RecvStream)
    (errorCode : VarInt) : Touches s (s.stop id origin self errorCode) id := by
  unfold stop
  split
  · exact .refl s id
  · exact ((Touches.refl s id).setValue (Or.inr hid)).send _ _ _

theorem dropValue_touches (hid : (s.values id).isSome) (origin : Option Nat) (v : Value) :
    Touches s (s.dropValue id origin v) id := by
  cases v with
  | sendStream self => exact (finish_touches hid origin self).setValue (Or.inl rfl)
  | recvStream self rx => exact (stop_touches hid origin self _).setValue (Or.inl rfl)
  | _ => exact (Touches.refl s id).setValue (Or.inl rfl)

theorem useSend_touches (hid : (s.values id).isSome) {origin : Option Nat} {self : SendStream}
    {op : Op} (h : s.useSend id origin self op = some t) : Touches s t id := by
  have hset : ∀ v cmd, Touches s ((s.setValue id v).send origin self.connId cmd) id :=
    fun v cmd => ((Touches.refl s id).setValue (Or.inr hid)).send _ _ _
  cases op <;> simp only [useSend] at h
  case write data =>
    split at h <;> cases h
    · exact .refl s id
    · exact (Touches.refl s id).send _ _ _
  case finish =>
    cases h
    exact finish_touches hid _ _
  case reset errorCode =>
    split at h <;> cases h
    · exact .refl s id
    · exact hset _ _
  case setPriority priority =>
    split at h <;> cases h
    · exact .refl s id
    · exact (Touches.refl s id).send _ _ _
  all_goals cases h

theorem useRecv_touches (hid : (s.values id).isSome) {origin : Option Nat} {self : RecvStream}
    {rx : Option (Nat × Option (Except ReadError (Bytes × Bool)))} {op : Op}
    (h : s.useRecv id origin self rx op = some t) : Touches s t id := by
  have hset : ∀ v, Touches s (s.setValue id v) id :=
    fun v => (Touches.refl s id).setValue (Or.inr hid)
  cases op <;> simp only [useRecv] at h
  case read maxLen =>
    split at h <;> cases h
    · exact .refl s id
    · exact (hset _).send _ _ _
  case pollRead maxLen =>
    split at h <;> cases h
    · exact .refl s id
    · exact (hset _).send _ _ _
  case onReply =>
    split at h <;> cases h
    exact hset _
  case stop errorCode =>
    cases h
    exact stop_touches hid _ _ _
  all_goals cases h

theorem useConnection_touches {origin : Option Nat} {connId : Nat} {op : Op}
    (h : s.useConnection id origin connId op = some t) : Touches s t id := by
  cases op <;> simp only [useConnection] at h <;> cases h
  case clone => exact (Touches.refl s id).add _
  case close => exact (Touches.refl s id).send _ _ _
  case query => exact (Touches.refl s id).send _ _ _
  case openStream => exact (Touches.refl s id).add _
  case acceptStream => exact (Touches.refl s id).add _

theorem useIncoming_touches (hid : (s.values id).isSome) {origin : Option Nat} {incomingId : Nat}
    {remoteAddr : SocketAddr} {op : Op}
    (h : s.useIncoming id origin incomingId remoteAddr op = some t) : Touches s t id := by
  cases op <;> simp only [useIncoming] at h <;> cases h
  case accept =>
    have hset := (Touches.refl s id).setValue (v := some ⟨origin, .connecting
      ⟨none, some incomingId, remoteAddr⟩⟩) (Or.inr hid)
    exact hset.enqueue (none, .acceptIncoming) rfl (Nat.le_refl _) rfl
  case refuse => exact ((Touches.refl s id).setValue (Or.inl rfl)).send _ _ _

theorem useValue_touches {h : Handle} (hh : s.values id = some h) {op : Op}
    (hstep : s.useValue id h op = some t) : Touches s t id := by
  have hid : (s.values id).isSome := by simp [hh]
  unfold useValue at hstep
  split at hstep
  · cases hstep
    exact dropValue_touches hid _ _
  · split at hstep <;> cases hstep
    · exact pollConnecting_touches hid _ _
    · exact pollOpen_touches hid _ _
    · exact pollAccept_touches hid _ _ _
  · split at hstep
    · exact useIncoming_touches hid hstep
    · exact useConnection_touches hstep
    · exact useSend_touches hid hstep
    · exact useRecv_touches hid hstep
    · cases hstep

end

/-! ## Runs -/

theorem Named.touches {s t : Handles κ χ ψ} {id : Nat} (hs : s.Named) (h : Touches s t id) :
    t.Named := by
  intro i g hg
  rcases h.fresh i g hg with hlt | hold
  · exact hlt
  · obtain ⟨g', hg'⟩ := Option.isSome_iff_exists.mp hold
    exact Nat.lt_of_lt_of_le (hs i g' hg') h.next

theorem deliver_values (s : Handles κ χ ψ) (uid : Option Nat) (x : Option (Respond × Reply))
    (i : Nat) :
    (s.deliver uid x).next = s.next ∧
      ((s.deliver uid x).values i = s.values i ∨
        ∃ n reply h, x = some ((i, n), reply) ∧ s.values i = some h ∧
          (s.deliver uid x).values i = some (h.deliver uid n reply)) := by
  rcases x with _ | ⟨⟨id, n⟩, reply⟩
  · exact ⟨rfl, Or.inl rfl⟩
  · cases hv : s.values id with
    | none =>
      simp [deliver, hv]
    | some h =>
      simp only [deliver, hv]
      refine ⟨rfl, ?_⟩
      by_cases hi : i = id
      · subst hi
        exact Or.inr ⟨n, reply, h, rfl, hv, by simp [setValue]⟩
      · exact Or.inl (by simp [setValue, hi])

theorem named_deliver {s : Handles κ χ ψ} (hs : s.Named) (uid : Option Nat)
    (x : Option (Respond × Reply)) : (s.deliver uid x).Named := by
  intro i g hg
  obtain ⟨hnext, hsame | ⟨n, reply, h, _, hold, _⟩⟩ := s.deliver_values uid x i
  · exact hnext ▸ hs i g (hsame ▸ hg)
  · exact hnext ▸ hs i h hold

theorem named_step {T : Tquic κ} {configError : χ → Option ConnectError} {s t : Handles κ χ ψ}
    {e : HandlesEvent κ χ ψ} (hs : s.Named) (hstep : s.step T configError e = some t) :
    t.Named := by
  have hcreate : ∀ {s' : Handles κ χ ψ} {new isServer t'}, s'.Named →
      s'.create new isServer = some t' → t'.Named := by
    intro s' new isServer t' hs' h
    unfold create at h
    split at h <;> cases h
    exact hs'
  cases step_inv hstep with
  | connCreated h => exact hcreate hs h
  | callback | closed | engine | release | refused => exact hs
  | setDefaultClientConfig | setServerConfig | closeEndpoint => exact hs
  | process hqueue hcmd =>
    rename_i answer origin cmd queue
    have hpop : Named { s with queue := queue } := hs
    cases cmd with
    | connect addr serverName clientConfig respond =>
      simp only [processCommand] at hcmd
      split at hcmd
      · obtain ⟨t', ht', rfl⟩ := Option.map_eq_some_iff.mp hcmd
        exact named_deliver (hcreate hpop ht') _ _
      · cases hcmd
        exact named_deliver hpop _ _
    | onConn connId cmd =>
      cases hcmd
      unfold processOnConn
      split
      · have hslab : ∀ slab : Nat → Option (Slot κ),
            Named { s with slab := slab, queue := queue } := fun _ => hs
        exact named_deliver (hslab _) _ _
      · exact named_deliver hpop _ _
    | _ =>
      cases hcmd
      exact hs
  | connect hopen =>
    rename_i addr serverName clientConfig
    have hsend : Touches s (s.sendEndpoint
        (.connect addr serverName clientConfig (s.next, s.next))) 0 :=
      (Touches.refl s 0).enqueue _ rfl (Nat.le_refl _) rfl
    exact hs.touches (hsend.add _)
  | accept hopen hincoming =>
    rename_i uid data incoming
    have hpop : Touches s { s with handle := { s.handle with incoming := incoming } } 0 :=
      (Touches.refl s 0).same rfl rfl rfl
    exact hs.touches (hpop.add _)
  | use hh huse => exact hs.touches (useValue_touches hh huse)

theorem named_init (isServer : Bool) : (init isServer : Handles κ χ ψ).Named := by
  intro id h hid
  simp [init] at hid

end Handles

end TokioTquic
