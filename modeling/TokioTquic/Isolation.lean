import TokioTquic.Async.Slots
import TokioTquic.HandleNames
import TokioTquic.HandleSteps

/-!
# Handles and reused indices

A handle names its connection by index. While every reference to an index means
the connection that `conn_states` has there, commands reach that connection or
none, and a close reason stays. An index given away under an old reference
breaks both.
-/

namespace TokioTquic
open Async
set_option autoImplicit false

universe u
variable {κ : Type u} {χ ψ : Type}

namespace Handles

/-- The next command, if a handle sent it, changes the handle's connection or nothing. -/
def Isolated (T : Tquic κ) (configError : χ → Option ConnectError) (s : Handles κ χ ψ) : Prop :=
  ∀ uid cmd, s.queue.head? = some (some uid, cmd) → ∀ answer t,
    s.process T configError answer = some t → ∀ index, t.slab index ≠ s.slab index →
      ∃ slot, s.slab index = some slot ∧ slot.uid = uid

/-- Every reference to an index means the connection `conn_states` has there, and
so does the slab. -/
structure Sound (s : Handles κ χ ψ) : Prop where
  owner : ∀ index slot, s.slab index = some slot → s.handle.connStates index = some slot.uid
  fresh : ∀ index uid, s.handle.connStates index = some uid → uid < s.nextConn
  oneSlot : OneSlot s.handle.connStates
  unclosed : ∀ index slot, s.slab index = some slot → slot.reported = false →
    (s.handle.notifies slot.uid).closed = none
  refs : ValidRefs s.handle.connStates s.Refers
  queue : ∀ uid cmd, (some uid, cmd) ∈ s.queue → ∃ connId c, cmd = .onConn connId c

theorem Sound.narrows {s t : Handles κ χ ψ} (hs : s.Sound) (h : Narrows s t) : t.Sound := by
  constructor
  · intro index slot' hslot'
    obtain ⟨slot, hslot, huid, _⟩ := h.slab index slot' hslot'
    rw [h.connStates, ← huid]
    exact hs.owner index slot hslot
  · rw [h.connStates, h.nextConn]
    exact hs.fresh
  · rw [h.connStates]
    exact hs.oneSlot
  · intro index slot' hslot' hopen
    obtain ⟨slot, hslot, huid, hreported⟩ := h.slab index slot' hslot'
    rw [h.closed, ← huid]
    exact hs.unclosed index slot hslot (hreported.trans hopen)
  · rw [h.connStates]
    exact hs.refs.mono h.refers
  · intro uid cmd hcmd
    rcases h.queue uid cmd hcmd with hold | hnew
    · exact hs.queue uid cmd hold
    · exact hnew

theorem deliver_sound {s : Handles κ χ ψ} (hs : s.Sound) {uid : Option Nat}
    {x : Option (Respond × Reply)} (hx : ∀ u respond connId, uid = some u →
      x = some (respond, .connected (.ok connId)) → s.handle.connStates connId = some u) :
    (s.deliver uid x).Sound := by
  obtain ⟨hslab, hnext, hhandle, hqueue⟩ := s.deliver_frame uid x
  constructor
  · rw [hslab, hhandle]
    exact hs.owner
  · rw [hhandle, hnext]
    exact hs.fresh
  · rw [hhandle]
    exact hs.oneSlot
  · rw [hslab, hhandle]
    exact hs.unclosed
  · rw [hhandle]
    intro u connId hr
    rcases refers_deliver hr with hold | ⟨huid, respond, hreply⟩
    · exact hs.refs u connId hold
    · exact hx u respond connId huid hreply
  · rw [hqueue]
    exact hs.queue

theorem create_sound {s t : Handles κ χ ψ} (hs : s.Sound) {new : NewConn κ} {isServer : Bool}
    (hfree : ∀ uid, ¬ s.Refers uid new.index) (hstep : s.create new isServer = some t) :
    t.Sound ∧ t.handle.connStates new.index = some s.nextConn := by
  unfold create at hstep
  split at hstep
  · simp at hstep
  · rename_i hnone
    cases hstep
    have hnew : ∀ j, s.handle.connStates j ≠ some s.nextConn := by
      intro j hj
      exact absurd (hs.fresh j _ hj) (Nat.lt_irrefl _)
    refine ⟨⟨?_, ?_, hs.oneSlot.assign new.index hnew, ?_, ?_, hs.queue⟩, Function.update_self ..⟩
    · intro index slot hslot
      by_cases hi : index = new.index
      · subst hi
        have hself : slot = ⟨s.nextConn, new.conn, false⟩ := by simpa [eq_comm] using hslot
        rw [hself]
        exact Function.update_self ..
      · have hold : s.slab index = some slot := by simpa [hi] using hslot
        simpa [BridgeHandle.onConnCreated, hi] using hs.owner index slot hold
    · intro index uid huid
      by_cases hi : index = new.index
      · have hself : s.nextConn = uid := by simpa [BridgeHandle.onConnCreated, hi] using huid
        exact hself ▸ Nat.lt_succ_self _
      · have hold : s.handle.connStates index = some uid := by
          simpa [BridgeHandle.onConnCreated, hi] using huid
        exact Nat.lt_succ_of_lt (hs.fresh index uid hold)
    · intro index slot hslot hopen
      by_cases hi : index = new.index
      · subst hi
        have hself : slot = ⟨s.nextConn, new.conn, false⟩ := by simpa [eq_comm] using hslot
        simp [hself, BridgeHandle.onConnCreated, ConnNotify.created, ConnNotify.new]
      · have hold : s.slab index = some slot := by simpa [hi] using hslot
        have hne : slot.uid ≠ s.nextConn :=
          fun heq => hnew index (heq ▸ hs.owner index slot hold)
        simpa [BridgeHandle.onConnCreated, hne] using hs.unclosed index slot hold hopen
    · apply hs.refs.assign hfree
      rintro uid connId (hqueue | ⟨remoteAddr, hincoming⟩ | hvalue)
      · exact Or.inl (Or.inl hqueue)
      · simp only [BridgeHandle.onConnCreated] at hincoming
        split at hincoming
        · rcases List.mem_append.mp hincoming with hold | hself
          · exact Or.inl (Or.inr (Or.inl ⟨remoteAddr, hold⟩))
          · obtain ⟨rfl, rfl, _⟩ : uid = s.nextConn ∧ connId = new.index ∧
                remoteAddr = new.activePath.getD .unspecified := by simpa using hself
            exact Or.inr ⟨rfl, rfl⟩
        · exact Or.inl (Or.inr (Or.inl ⟨remoteAddr, hincoming⟩))
      · exact Or.inl (Or.inr (Or.inr hvalue))

theorem closed_sound {s t : Handles κ χ ψ} (hs : s.Sound) {index : Nat} {info : CloseInfo}
    (hstep : s.runCallback index (.onConnClosed info) = some t) : t.Sound := by
  obtain ⟨slot, hslot, _, rfl⟩ := runCallback_closed hstep
  obtain ⟨hstates, hincoming, _⟩ := s.handle.callback_frame (some index) (.onConnClosed info)
  have hslab : ∀ i slot', Function.update s.slab index (some { slot with reported := true }) i =
      some slot' → ∃ old, s.slab i = some old ∧ old.uid = slot'.uid ∧
        (slot'.reported = false → i ≠ index ∧ old = slot') := by
    intro i slot' h
    by_cases hi : i = index
    · subst hi
      rw [Function.update_self] at h
      cases h
      exact ⟨slot, hslot, rfl, by simp⟩
    · rw [Function.update_of_ne hi] at h
      exact ⟨slot', h, rfl, fun _ => ⟨hi, rfl⟩⟩
  constructor
  · intro i slot' h
    obtain ⟨old, hold, huid, _⟩ := hslab i slot' h
    rw [hstates, ← huid]
    exact hs.owner i old hold
  · rw [hstates]
    exact hs.fresh
  · rw [hstates]
    exact hs.oneSlot
  · intro i slot' h hopen
    obtain ⟨old, hold, _, hsame⟩ := hslab i slot' h
    obtain ⟨hi, rfl⟩ := hsame hopen
    -- another index belongs to another connection
    have huid : s.handle.connStates index ≠ some old.uid :=
      fun heq => hi (hs.oneSlot i index old.uid (hs.owner i old hold) heq)
    rw [BridgeHandle.callback_notifies _ _ _ huid]
    exact hs.unclosed i old hold hopen
  · rw [hstates]
    apply hs.refs.mono
    rintro uid connId (hqueue | hin | hvalue)
    · exact Or.inl hqueue
    · exact Or.inr (Or.inl (hincoming ▸ hin))
    · exact Or.inr (Or.inr hvalue)
  · exact hs.queue

theorem created_sound {s t : Handles κ χ ψ} (hs : s.Sound) {new : NewConn κ}
    (hfree : ∀ uid, ¬ s.Refers uid new.index) (h : Created s t new) : t.Sound := by
  obtain ⟨isServer, t', x, hcreate, rfl, hx⟩ := h
  obtain ⟨hsound, hconn⟩ := create_sound hs hfree hcreate
  apply deliver_sound hsound
  intro u respond connId hu hreply
  rw [hx respond connId hreply, hconn]
  exact hu

theorem sound_step {T : Tquic κ} {configError : χ → Option ConnectError} {s t : Handles κ χ ψ}
    {e : HandlesEvent κ χ ψ} (hs : s.Sound) (hguard : s.Unshared configError e)
    (hstep : s.step T configError e = some t) : t.Sound := by
  rcases step_cases hstep with h | ⟨s', new, h, hcreated, hindex⟩ | ⟨index, info, hclosed⟩
  · exact hs.narrows h
  · refine created_sound (hs.narrows h) ?_ hcreated
    exact fun uid hr => hguard new.index hindex uid (h.refers uid new.index hr)
  · exact closed_sound hs hclosed

theorem sound_init (isServer : Bool) : (init isServer : Handles κ χ ψ).Sound := by
  constructor
  · intro index slot h
    simp [init] at h
  · intro index uid h
    simp [init, BridgeHandle.new] at h
  · intro i j a h
    simp [init, BridgeHandle.new] at h
  · intro index slot h
    simp [init] at h
  · rintro uid connId (⟨cmd, h⟩ | ⟨remoteAddr, h⟩ | ⟨id, g, h, _⟩)
    · simp [init] at h
    · simp [init, BridgeHandle.new] at h
    · simp [init] at h
  · intro uid cmd h
    simp [init] at h

theorem sound_reach {T : Tquic κ} {configError : χ → Option ConnectError} {s t : Handles κ χ ψ}
    (h : Reach (step T configError) (Unshared configError) s t) (hs : s.Sound) : t.Sound :=
  h.invariant (fun _ _ _ hI hg hstep => sound_step hI hg hstep) hs

/-! ## Isolation -/

theorem isolated_of_sound {T : Tquic κ} {configError : χ → Option ConnectError}
    {s : Handles κ χ ψ} (hs : s.Sound) : s.Isolated T configError := by
  intro uid cmd hhead answer t hstep index hchanged
  have hmem : (some uid, cmd) ∈ s.queue := List.mem_of_mem_head? hhead
  obtain ⟨connId, c, rfl⟩ := hs.queue uid cmd hmem
  have howner : s.handle.connStates connId = some uid := hs.refs uid connId (Or.inl ⟨c, hmem⟩)
  unfold process at hstep
  split at hstep
  · simp at hstep
  · rename_i origin cmd queue hqueue
    obtain ⟨_, rfl⟩ : origin = some uid ∧ cmd = .onConn connId c := by simpa [hqueue] using hhead
    cases hstep
    simp only [processOnConn] at hchanged
    split at hchanged
    · rename_i slot hslot
      rw [(deliver_frame _ _ _).1] at hchanged
      by_cases hi : index = connId
      · subst hi
        have huid := howner.symm.trans (hs.owner index slot hslot)
        exact ⟨slot, hslot, (Option.some.inj huid).symm⟩
      · exact absurd (Function.update_of_ne hi ..) hchanged
    · rw [(deliver_frame _ _ _).1] at hchanged
      exact absurd rfl hchanged

theorem reason_step {T : Tquic κ} {configError : χ → Option ConnectError} {s t : Handles κ χ ψ}
    {e : HandlesEvent κ χ ψ} (hs : s.Sound) (hstep : s.step T configError e = some t) {uid : Nat}
    {reason : ConnectionError} (huid : uid < s.nextConn)
    (hreason : (s.handle.notifies uid).closed = some reason) :
    uid < t.nextConn ∧ (t.handle.notifies uid).closed = some reason := by
  rcases step_cases hstep with h | ⟨s', new, h, hcreated, _⟩ | ⟨index, info, hclosed⟩
  · rw [h.nextConn, h.closed]
    exact ⟨huid, hreason⟩
  · obtain ⟨isServer, t', x, hcreate, rfl, _⟩ := hcreated
    obtain ⟨_, hnext, hhandle, _⟩ := t'.deliver_frame (some s'.nextConn) x
    rw [hnext, hhandle]
    unfold create at hcreate
    split at hcreate
    · simp at hcreate
    · cases hcreate
      rw [← h.nextConn] at huid
      rw [← h.closed] at hreason
      have hne : uid ≠ s'.nextConn := by omega
      refine ⟨Nat.lt_succ_of_lt huid, ?_⟩
      simpa [BridgeHandle.onConnCreated, hne] using hreason
  · obtain ⟨slot, hslot, hopen, rfl⟩ := runCallback_closed hclosed
    refine ⟨huid, ?_⟩
    -- the connection that is reported closed now has no reason yet
    have hother : s.handle.connStates index ≠ some uid := by
      rw [hs.owner index slot hslot]
      intro heq
      cases heq
      simp [hs.unclosed index slot hslot hopen] at hreason
    rw [BridgeHandle.callback_notifies _ _ _ hother]
    exact hreason

theorem reason_reach {T : Tquic κ} {configError : χ → Option ConnectError} {s t : Handles κ χ ψ}
    (h : Reach (step T configError) (Unshared configError) s t) (hs : s.Sound) {uid : Nat}
    {reason : ConnectionError} (huid : uid < s.nextConn)
    (hreason : (s.handle.notifies uid).closed = some reason) :
    (t.handle.notifies uid).closed = some reason := by
  have hboth : t.Sound ∧ uid < t.nextConn ∧ (t.handle.notifies uid).closed = some reason := by
    induction h with
    | refl => exact ⟨hs, huid, hreason⟩
    | tail _ hg hstep ih =>
      exact ⟨sound_step ih.1 hg hstep, reason_step ih.1 hstep ih.2.1 ih.2.2⟩
  exact hboth.2.2

/-- While no index is reused under a reference, every command of a handle changes
the handle's connection or nothing, and what `close_reason` returned through a
handle of a connection it returns through every handle of it from then on. -/
theorem handles_isolated (T : Tquic κ) (configError : χ → Option ConnectError) (isServer : Bool)
    (s t : Handles κ χ ψ)
    (hs : Reach (step T configError) (Unshared configError) (init isServer) s)
    (hst : Reach (step T configError) (Unshared configError) s t) :
    t.Isolated T configError ∧
    ∀ id id' uid connId connId' reason,
      s.values id = some ⟨some uid, .connection connId⟩ →
      t.values id' = some ⟨some uid, .connection connId'⟩ →
      s.handle.closeReason connId = some reason → t.handle.closeReason connId' = some reason := by
  have hsound := sound_reach hs (sound_init isServer)
  have htsound := sound_reach hst hsound
  refine ⟨isolated_of_sound htsound, ?_⟩
  intro id id' uid connId connId' reason hid hid' hreason
  have howner := hsound.refs uid connId (Or.inr (Or.inr ⟨id, _, hid, rfl, rfl⟩))
  have howner' := htsound.refs uid connId' (Or.inr (Or.inr ⟨id', _, hid', rfl, rfl⟩))
  have hclosed : (s.handle.notifies uid).closed = some reason := by
    simpa [BridgeHandle.closeReason, howner] using hreason
  have hkept := reason_reach hst hsound (hsound.fresh connId uid howner) hclosed
  simpa [BridgeHandle.closeReason, howner'] using hkept

/-- Connect, wait for the handshake, and lose the connection at index 0. -/
def lostRun : List (HandlesEvent Script Unit Unit) :=
  [.connect .unspecified "localhost" none, .process (.ok ⟨0, {}, none⟩),
    .callback 0 .onConnEstablished, .use 0 (.poll .recv),
    .callback 0 (.onConnClosed ⟨none, none, true, false, false⟩)]

/-- A second connection gets index 0, and the first one's handle closes it. -/
def reuseRun : List (HandlesEvent Script Unit Unit) :=
  [.release 0, .connect .unspecified "localhost" none, .process (.ok ⟨0, {}, none⟩),
    .use 1 (.close ⟨7, by decide⟩ [])]

/-- Only these events can create a connection. -/
def mayCreate : HandlesEvent κ χ ψ → Bool
  | .connCreated _ _ | .process (.ok _) => true
  | _ => false

theorem unshared_quiet {configError : χ → Option ConnectError} {e : HandlesEvent κ χ ψ}
    (he : mayCreate e = false) (s : Handles κ χ ψ) : s.Unshared configError e := by
  intro index hcreates
  cases e with
  | connCreated new isServer => cases he
  | process answer =>
    cases answer with
    | ok new => cases he
    | error e =>
      obtain ⟨_, _, _, clientConfig, _, _, -, hok, -⟩ := hcreates
      unfold connectOutcome at hok
      split at hok <;> cases hok
  | _ => cases hcreates

/-- Nothing refers to a connection where no command, value or incoming connection is of one. -/
theorem unshared_anonymous {configError : χ → Option ConnectError} {s : Handles κ χ ψ}
    (hs : s.Named) (hin : s.handle.incoming = [])
    (hqueue : s.queue.all (fun x => x.1.isNone) = true)
    (hvalues :
      (List.range s.next).all (fun id => (s.values id).all fun h => h.origin.isNone) = true)
    (e : HandlesEvent κ χ ψ) : s.Unshared configError e := by
  rintro index - uid (⟨cmd, hcmd⟩ | ⟨remoteAddr, h⟩ | ⟨id, h, hh, ho, -⟩)
  · have hnone := List.all_eq_true.mp hqueue _ hcmd
    cases hnone
  · rw [hin] at h
    cases h
  · have hnone := List.all_eq_true.mp hvalues id (List.mem_range.mpr (hs id h hh))
    rw [hh, Option.all_some, ho] at hnone
    cases hnone

/-- A connection is closed by its handle and left, while a second one is asked for. -/
def successionRun : List (HandlesEvent Script Unit Unit) :=
  [.callback 0 .onConnEstablished, .use 0 (.poll .recv), .use 1 (.close ⟨7, by decide⟩ []),
    .process (.error .done), .callback 0 (.onConnClosed ⟨none, none, false, false, false⟩),
    .use 0 .drop, .use 1 .drop, .release 0, .connect .unspecified "two" none]

/-- The second one gets the index and is lost while a command for it is queued. -/
def successorRun : List (HandlesEvent Script Unit Unit) :=
  [.callback 0 .onConnEstablished, .use 3 (.poll .recv), .use 4 (.query .rtt),
    .callback 0 (.onConnClosed ⟨none, none, true, false, false⟩)]

theorem handles_isolated_succession :
    ∃ s t : Handles Script Unit Unit,
      Reach (step Tquic.scripted fun _ => none) (Unshared fun _ => none) (init false) s ∧
      s.Isolated Tquic.scripted (fun _ => none) ∧ s.nextConn = 2 ∧
      s.queue = [(some 1, .onConn 0 (.getRtt (4, 5)))] ∧
      s.handle.closeReason 0 = some .timedOut ∧
      run (step Tquic.scripted fun _ => none) s [.process (.error .done), .release 0] = some t ∧
      t.handle.closeReason 0 = some .timedOut := by
  obtain ⟨a, b, c, d, s, t, ha, hb, hc, hd, hs, ht, hain, haqueue, havalues, hcin, hcqueue,
      hcvalues, hnext, hqueue, hvalue, hvalue', hreason⟩ :
      ∃ a b c d s t : Handles Script Unit Unit,
      run (step Tquic.scripted fun _ => none) (init false)
        [.connect .unspecified "one" none] = some a ∧
      a.step Tquic.scripted (fun _ => none) (.process (.ok ⟨0, {}, none⟩)) = some b ∧
      run (step Tquic.scripted fun _ => none) b successionRun = some c ∧
      c.step Tquic.scripted (fun _ => none) (.process (.ok ⟨0, {}, none⟩)) = some d ∧
      run (step Tquic.scripted fun _ => none) d successorRun = some s ∧
      run (step Tquic.scripted fun _ => none) s [.process (.error .done), .release 0] = some t ∧
      a.handle.incoming = [] ∧ a.queue.all (fun x => x.1.isNone) = true ∧
      (List.range a.next).all (fun id => (a.values id).all fun h => h.origin.isNone) = true ∧
      c.handle.incoming = [] ∧ c.queue.all (fun x => x.1.isNone) = true ∧
      (List.range c.next).all (fun id => (c.values id).all fun h => h.origin.isNone) = true ∧
      s.nextConn = 2 ∧ s.queue = [(some 1, .onConn 0 (.getRtt (4, 5)))] ∧
      s.values 4 = some ⟨some 1, .connection 0⟩ ∧ t.values 4 = some ⟨some 1, .connection 0⟩ ∧
      s.handle.closeReason 0 = some .timedOut :=
    ⟨_, _, _, _, _, _, rfl, rfl, rfl, rfl, rfl, rfl, rfl, rfl, rfl, rfl, rfl, rfl, rfl, rfl, rfl,
      rfl, rfl⟩
  have hquiet : ∀ {es : List (HandlesEvent Script Unit Unit)} {u v : Handles Script Unit Unit},
      es.all (fun e => !mayCreate e) = true →
      run (step Tquic.scripted fun _ => none) u es = some v →
      Reach (step Tquic.scripted fun _ => none) (Unshared fun _ => none) u v := by
    intro es u v hes hrun
    refine reach_of_run (fun e he u => unshared_quiet ?_ u) hrun
    simpa using List.all_eq_true.mp hes e he
  have hnamed : ∀ {u : Handles Script Unit Unit},
      Reach (step Tquic.scripted fun _ => none) (Unshared fun _ => none) (init false) u →
      u.Named := fun hu =>
    hu.invariant (fun _ _ _ hI _ hstep => named_step hI hstep) (named_init false)
  have hreach := hquiet rfl ha
  have hreach := (hreach.tail (unshared_anonymous (hnamed hreach) hain haqueue havalues _) hb).trans
    (hquiet rfl hc)
  have hreach := (hreach.tail (unshared_anonymous (hnamed hreach) hcin hcqueue hcvalues _) hd).trans
    (hquiet rfl hs)
  have hisolated := (handles_isolated Tquic.scripted (fun _ => none) false s t hreach
    (hquiet rfl ht))
  have hsafe := handles_isolated Tquic.scripted (fun _ => none) false s s hreach (.refl s)
  exact ⟨s, t, hreach, hsafe.1, hnext, hqueue, hreason, ht,
    hisolated.2 4 4 1 0 0 .timedOut hvalue hvalue' hreason⟩

/-- The old handle closes the new connection, and its own close reason is gone. -/
theorem handles_share_index :
    ∃ s t : Handles Script Unit Unit,
      Reach (step Tquic.scripted fun _ => none) Any (init false) s ∧
      Reach (step Tquic.scripted fun _ => none) Any s t ∧
      s.values 1 = some ⟨some 0, .connection 0⟩ ∧ t.values 1 = some ⟨some 0, .connection 0⟩ ∧
      s.handle.closeReason 0 = some .timedOut ∧ t.handle.closeReason 0 = none ∧
      ¬ t.Isolated Tquic.scripted fun _ => none := by
  obtain ⟨s, hs, hvalue, hreason, t, ht, hvalue', hreason', hhead, t', ht', hslab, hslab'⟩ :
      ∃ s, run (step Tquic.scripted fun _ => none) (init false) lostRun = some s ∧
        s.values 1 = some ⟨some 0, .connection 0⟩ ∧ s.handle.closeReason 0 = some .timedOut ∧
        ∃ t, run (step Tquic.scripted fun _ => none) s reuseRun = some t ∧
          t.values 1 = some ⟨some 0, .connection 0⟩ ∧ t.handle.closeReason 0 = none ∧
          t.queue.head? = some (some 0, .onConn 0 (.closeConnection 7 [])) ∧
          ∃ t', t.process Tquic.scripted (fun _ => none) (.error .done) = some t' ∧
            t.slab 0 = some ⟨1, {}, false⟩ ∧ t'.slab 0 = some ⟨1, { closes := [7] }, false⟩ :=
    ⟨_, rfl, rfl, rfl, _, rfl, rfl, rfl, rfl, _, rfl, rfl, rfl⟩
  refine ⟨s, t, reach_any_of_run hs, reach_any_of_run ht, hvalue, hvalue', hreason, hreason', ?_⟩
  intro hisolated
  obtain ⟨slot, hslot, huid⟩ := hisolated 0 _ hhead _ t' ht' 0 (by simp [hslab, hslab'])
  rw [hslab] at hslot
  cases hslot
  simp at huid

end Handles

end TokioTquic
