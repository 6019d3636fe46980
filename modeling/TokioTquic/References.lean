import TokioTquic.Handles

/-!
# References to a connection

A queued command, an undelivered incoming connection and a value refer to a
connection by its index. Nearly every event only passes such references on.
-/

namespace TokioTquic
open Async
set_option autoImplicit false

universe u
variable {κ : Type u} {χ ψ : Type}

namespace Handles

/-- Something still refers to `uid` by the index `connId`: a queued command, an
undelivered incoming connection, or a value that can act. -/
def Refers (s : Handles κ χ ψ) (uid connId : Nat) : Prop :=
  (∃ cmd, (some uid, BridgeCommand.onConn connId cmd) ∈ s.queue) ∨
  (∃ remoteAddr, (uid, IncomingData.mk connId remoteAddr) ∈ s.handle.incoming) ∨
  ∃ id h, s.values id = some h ∧ h.origin = some uid ∧ h.value.connId = some connId

/-- The event makes the engine create a connection at `index`. -/
def Creates (configError : χ → Option ConnectError) (s : Handles κ χ ψ) (index : Nat) :
    HandlesEvent κ χ ψ → Prop
  | .connCreated new _ => new.index = index
  | .process answer => ∃ origin addr serverName clientConfig respond new,
      s.queue.head? = some (origin, .connect addr serverName clientConfig respond) ∧
        connectOutcome configError s.currentClientConfig clientConfig answer = .ok new ∧
        new.index = index
  | _ => False

/-- No index is given to a new connection while something refers to an old one by it. -/
def Unshared (configError : χ → Option ConnectError) (s : Handles κ χ ψ)
    (e : HandlesEvent κ χ ψ) : Prop :=
  ∀ index, s.Creates configError index e → ∀ uid, ¬ s.Refers uid index

/-! ## Passing references on -/

/-- Whoever sends for `connId` on behalf of `origin` may. -/
def Licensed (s : Handles κ χ ψ) (origin : Option Nat) (connId : Nat) : Prop :=
  ∀ uid, origin = some uid → s.Refers uid connId

def Known (s : Handles κ χ ψ) (h : Handle) : Prop :=
  ∀ connId, h.value.connId = some connId → s.Licensed h.origin connId

/-- From `s` to `t` no connection is created or closed, and no reference comes up. -/
structure Narrows (s t : Handles κ χ ψ) : Prop where
  slab : ∀ index slot', t.slab index = some slot' → ∃ slot, s.slab index = some slot ∧
    slot.uid = slot'.uid ∧ slot.reported = slot'.reported
  nextConn : t.nextConn = s.nextConn
  connStates : t.handle.connStates = s.handle.connStates
  closed : ∀ uid, (t.handle.notifies uid).closed = (s.handle.notifies uid).closed
  refers : ∀ uid connId, t.Refers uid connId → s.Refers uid connId
  queue : ∀ uid cmd, (some uid, cmd) ∈ t.queue →
    (some uid, cmd) ∈ s.queue ∨ ∃ connId c, cmd = .onConn connId c

theorem licensed_value {s : Handles κ χ ψ} {id : Nat} {h : Handle} (hh : s.values id = some h) :
    s.Known h := by
  intro connId hconn uid horigin
  exact Or.inr (Or.inr ⟨id, h, hh, horigin, hconn⟩)

theorem Narrows.refl (s : Handles κ χ ψ) : Narrows s s :=
  ⟨fun _ slot' h => ⟨slot', h, rfl, rfl⟩, rfl, rfl, fun _ => rfl, fun _ _ h => h,
    fun _ _ h => Or.inl h⟩

theorem Narrows.trans {s t t' : Handles κ χ ψ} (h : Narrows s t) (h' : Narrows t t') :
    Narrows s t' := by
  refine ⟨?_, h'.nextConn.trans h.nextConn, h'.connStates.trans h.connStates,
    fun uid => (h'.closed uid).trans (h.closed uid),
    fun uid connId hr => h.refers uid connId (h'.refers uid connId hr), ?_⟩
  · intro index slot₂ hslot₂
    obtain ⟨slot₁, hslot₁, huid₁, hreported₁⟩ := h'.slab index slot₂ hslot₂
    obtain ⟨slot, hslot, huid, hreported⟩ := h.slab index slot₁ hslot₁
    exact ⟨slot, hslot, huid.trans huid₁, hreported.trans hreported₁⟩
  · intro uid cmd hcmd
    rcases h'.queue uid cmd hcmd with hold | hnew
    · exact h.queue uid cmd hold
    · exact Or.inr hnew

theorem Narrows.setValue {s t : Handles κ χ ψ} (h : Narrows s t) (id : Nat) {v : Option Handle}
    (hv : ∀ g ∈ v, s.Known g) : Narrows s (t.setValue id v) := by
  refine ⟨h.slab, h.nextConn, h.connStates, h.closed, ?_, h.queue⟩
  rintro uid connId (hqueue | hincoming | ⟨id', g, hg, horigin, hconn⟩)
  · exact h.refers uid connId (Or.inl hqueue)
  · exact h.refers uid connId (Or.inr (Or.inl hincoming))
  · by_cases hid : id' = id
    · subst hid
      have hgv : v = some g := by simpa [Handles.setValue] using hg
      exact hv g hgv connId hconn uid horigin
    · have hold : t.values id' = some g := by simpa [Handles.setValue, hid] using hg
      exact h.refers uid connId (Or.inr (Or.inr ⟨id', g, hold, horigin, hconn⟩))

theorem Narrows.put {s t : Handles κ χ ψ} (h : Narrows s t) (id : Nat) {g : Handle}
    (hg : s.Known g) : Narrows s (t.setValue id (some g)) := by
  apply h.setValue
  intro g' hg'
  obtain rfl := Option.mem_some.mp hg'
  exact hg

theorem Narrows.clear {s t : Handles κ χ ψ} (h : Narrows s t) (id : Nat) :
    Narrows s (t.setValue id none) := by
  apply h.setValue
  simp

theorem Narrows.add {s t : Handles κ χ ψ} (h : Narrows s t) {g : Handle} (hg : s.Known g) :
    Narrows s (t.add g) := by
  have hset := h.put t.next hg
  exact ⟨hset.slab, hset.nextConn, hset.connStates, hset.closed, hset.refers, hset.queue⟩

theorem Narrows.enqueue {s t t' : Handles κ χ ψ} (h : Narrows s t) {origin : Option Nat}
    {cmd : BridgeCommand χ ψ Respond} (hqueue : t'.queue = t.queue ++ [(origin, cmd)])
    (hslab : t'.slab = t.slab) (hnext : t'.nextConn = t.nextConn) (hhandle : t'.handle = t.handle)
    (hvalues : t'.values = t.values)
    (hcmd : origin = none ∨ ∃ connId c, cmd = .onConn connId c ∧ s.Licensed origin connId) :
    Narrows s t' := by
  refine ⟨?_, hnext.trans h.nextConn, ?_, ?_, ?_, ?_⟩
  · rw [hslab]
    exact h.slab
  · rw [hhandle]
    exact h.connStates
  · rw [hhandle]
    exact h.closed
  · rintro uid connId (⟨c, hc⟩ | hincoming | hvalue)
    · rw [hqueue] at hc
      rcases List.mem_append.mp hc with hc | hc
      · exact h.refers uid connId (Or.inl ⟨c, hc⟩)
      · obtain ⟨horigin, hcmd'⟩ : some uid = origin ∧ BridgeCommand.onConn connId c = cmd := by
          simpa using hc
        rcases hcmd with hnone | ⟨connId', c', heq, hlic⟩
        · simp [hnone] at horigin
        · obtain ⟨rfl, _⟩ : connId = connId' ∧ c = c' := by simpa using hcmd'.trans heq
          exact hlic uid horigin.symm
    · rw [hhandle] at hincoming
      exact h.refers uid connId (Or.inr (Or.inl hincoming))
    · rw [hvalues] at hvalue
      exact h.refers uid connId (Or.inr (Or.inr hvalue))
  · intro uid c hc
    rw [hqueue] at hc
    rcases List.mem_append.mp hc with hc | hc
    · exact h.queue uid c hc
    · obtain ⟨horigin, rfl⟩ : some uid = origin ∧ c = cmd := by simpa using hc
      rcases hcmd with hnone | ⟨connId', c', heq, _⟩
      · simp [hnone] at horigin
      · exact Or.inr ⟨connId', c', heq⟩

theorem Narrows.send {s t : Handles κ χ ψ} (h : Narrows s t) {origin : Option Nat} {connId : Nat}
    (hlic : s.Licensed origin connId) (cmd : ConnCommand Respond) :
    Narrows s (t.send origin connId cmd) :=
  h.enqueue rfl rfl rfl rfl rfl (Or.inr ⟨connId, cmd, rfl, hlic⟩)

theorem Narrows.modifyNotify {s t : Handles κ χ ψ} (h : Narrows s t) (uid : Nat)
    {f : ConnNotify → ConnNotify} (hf : ∀ cn, (f cn).closed = cn.closed) :
    Narrows s (t.modifyNotify uid f) := by
  refine ⟨h.slab, h.nextConn, h.connStates, ?_, h.refers, h.queue⟩
  intro uid'
  by_cases hu : uid' = uid
  · subst hu
    simp [Handles.modifyNotify, BridgeHandle.modifyNotify, hf, h.closed]
  · simp [Handles.modifyNotify, BridgeHandle.modifyNotify, hu, h.closed]

theorem Narrows.addHalves {s t : Handles κ χ ψ} (h : Narrows s t) {origin : Option Nat}
    {connId : Nat} (hlic : s.Licensed origin connId) (streamId : Nat) (send recv : Bool) :
    Narrows s (t.addHalves origin connId streamId send recv) := by
  have hsend : s.Known ⟨origin, .sendStream ⟨connId, streamId, false⟩⟩ := by
    intro i hi
    obtain rfl : connId = i := by simpa [Value.connId] using hi
    exact hlic
  have hrecv : s.Known ⟨origin, .recvStream ⟨connId, streamId, false⟩ none⟩ := by
    intro i hi
    obtain rfl : connId = i := by simpa [Value.connId] using hi
    exact hlic
  cases send <;> cases recv
  · exact h
  · exact h.add hrecv
  · exact h.add hsend
  · exact (h.add hsend).add hrecv

theorem known_of_mute {s : Handles κ χ ψ} {h : Handle} (hmute : h.value.connId = none) :
    s.Known h := by
  intro i hi
  rw [hmute] at hi
  cases hi

theorem known_of_licensed {s : Handles κ χ ψ} {h : Handle} {connId : Nat}
    (hlic : s.Licensed h.origin connId) (hconn : ∀ i, h.value.connId = some i → i = connId) :
    s.Known h := by
  intro i hi
  rw [hconn i hi]
  exact hlic

/-! ## Replies -/

theorem deliver_refers {h g : Handle} {uid : Option Nat} {n : Nat} {reply : Reply} {u connId : Nat}
    (hg : h.deliver uid n reply = g) (horigin : g.origin = some u)
    (hconn : g.value.connId = some connId) :
    (h.origin = some u ∧ h.value.connId = some connId) ∨
      (uid = some u ∧ reply = .connected (.ok connId)) := by
  unfold Handle.deliver at hg
  split at hg
  · rename_i remoteAddr r hvalue
    subst hg
    cases r with
    | error e => simp [Value.connId] at hconn
    | ok i =>
      obtain rfl : i = connId := by simpa [Value.connId] using hconn
      exact Or.inr ⟨horigin, rfl⟩
  · rename_i dir i r hvalue
    subst hg
    rw [hvalue]
    exact Or.inl ⟨horigin, hconn⟩
  · rename_i self m r hvalue
    split at hg
    · subst hg
      rw [hvalue]
      exact Or.inl ⟨horigin, hconn⟩
    · subst hg
      exact Or.inl ⟨horigin, hconn⟩
  · subst hg
    exact Or.inl ⟨horigin, hconn⟩

theorem deliver_frame (s : Handles κ χ ψ) (uid : Option Nat) (x : Option (Respond × Reply)) :
    (s.deliver uid x).slab = s.slab ∧ (s.deliver uid x).nextConn = s.nextConn ∧
      (s.deliver uid x).handle = s.handle ∧ (s.deliver uid x).queue = s.queue := by
  unfold deliver
  split
  · split <;> exact ⟨rfl, rfl, rfl, rfl⟩
  · exact ⟨rfl, rfl, rfl, rfl⟩

theorem refers_deliver {s : Handles κ χ ψ} {uid : Option Nat} {x : Option (Respond × Reply)}
    {u connId : Nat} (h : (s.deliver uid x).Refers u connId) :
    s.Refers u connId ∨
      (uid = some u ∧ ∃ respond, x = some (respond, .connected (.ok connId))) := by
  obtain ⟨_, _, hhandle, hqueue⟩ := s.deliver_frame uid x
  rcases h with ⟨cmd, hcmd⟩ | ⟨remoteAddr, hincoming⟩ | ⟨id', g', hg', horigin, hconn⟩
  · exact Or.inl (Or.inl ⟨cmd, hqueue ▸ hcmd⟩)
  · exact Or.inl (Or.inr (Or.inl ⟨remoteAddr, hhandle ▸ hincoming⟩))
  · rcases x with _ | ⟨⟨id, n⟩, reply⟩
    · exact Or.inl (Or.inr (Or.inr ⟨id', g', hg', horigin, hconn⟩))
    · cases hv : s.values id with
      | none =>
        simp only [deliver, hv] at hg'
        exact Or.inl (Or.inr (Or.inr ⟨id', g', hg', horigin, hconn⟩))
      | some g =>
        simp only [deliver, hv] at hg'
        by_cases hid : id' = id
        · subst hid
          have heq : g.deliver uid n reply = g' := by simpa [setValue] using hg'
          rcases deliver_refers heq horigin hconn with ⟨horigin', hconn'⟩ | ⟨huid, hreply⟩
          · exact Or.inl (Or.inr (Or.inr ⟨id', g, hv, horigin', hconn'⟩))
          · exact Or.inr ⟨huid, (id', n), by rw [hreply]⟩
        · have hold : s.values id' = some g' := by simpa [setValue, hid] using hg'
          exact Or.inl (Or.inr (Or.inr ⟨id', g', hold, horigin, hconn⟩))

theorem Narrows.deliver {s t : Handles κ χ ψ} (h : Narrows s t) (x : Option (Respond × Reply)) :
    Narrows s (t.deliver none x) := by
  obtain ⟨hslab, hnext, hhandle, hqueue⟩ := t.deliver_frame none x
  refine ⟨?_, hnext.trans h.nextConn, ?_, ?_, ?_, ?_⟩
  · rw [hslab]
    exact h.slab
  · rw [hhandle]
    exact h.connStates
  · rw [hhandle]
    exact h.closed
  · intro uid connId hr
    rcases refers_deliver hr with hold | ⟨hnone, _⟩
    · exact h.refers uid connId hold
    · simp at hnone
  · rw [hqueue]
    exact h.queue

end Handles

end TokioTquic
