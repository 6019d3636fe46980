import TokioTquic.Connections

/-!
# The reported address of the peer

`on_conn_created` copies the remote address of the active path, and nothing
writes the copy again.
-/

namespace TokioTquic
open Async
set_option autoImplicit false

universe u
variable {κ : Type u} {χ ψ : Type}

/-- `Connection::remote_address`. -/
def BridgeHandle.remoteAddress (self : BridgeHandle) (connId : Nat) : SocketAddr :=
  match self.connStates connId with
  | some uid => (self.notifies uid).remoteAddr
  | none => .unspecified

/-- `Connecting::remote_address`. -/
def Connecting.remoteAddress (self : Connecting) (handle : BridgeHandle) : SocketAddr :=
  match self.connId.bind handle.connStates with
  | some uid => (handle.notifies uid).remoteAddr
  | none => self.remoteAddr

/-- What the engine promises about migration, where `activeRemote` is the remote address of
a connection's active path. -/
structure Tquic.Migrates (T : Tquic κ) (activeRemote : κ → SocketAddr) : Prop where
  migrated : ∀ c l r, (T.migratePath c l r).1 = .ok () → activeRemote (T.migratePath c l r).2 = r
  refused : ∀ c l r e, (T.migratePath c l r).1 = .error e →
    activeRemote (T.migratePath c l r).2 = activeRemote c

namespace Connections
variable {T : Tquic κ} {activeRemote : κ → SocketAddr} {s t : Connections κ}
  {a : ConnectionsEvent κ}

/-- `get_active_path` succeeds in `on_conn_created`. -/
def HasPath (activeRemote : κ → SocketAddr) : ConnectionsEvent κ → Prop
  | .created new => new.activePath = some (activeRemote new.conn)
  | _ => True

/-- A migration that succeeds is to the remote address the active path already has, and
nothing else moves the active path to another remote address. -/
def Steady (T : Tquic κ) (activeRemote : κ → SocketAddr) (s : Connections κ)
    (a : ConnectionsEvent κ) : Prop :=
  match a with
  | .command index (.migratePath l r _) => ∀ slot, s.slab index = some slot →
      slot.reported = false → (T.migratePath slot.conn l r).1 = .ok () → r = activeRemote slot.conn
  | a => ∀ index slot, s.slab index = some slot → slot.reported = false →
      activeRemote (s.next T index slot.conn a) = activeRemote slot.conn

/-- The copy is the remote address of the active path. -/
def Live (activeRemote : κ → SocketAddr) (s : Connections κ) : Prop :=
  ∀ index slot, s.slab index = some slot → slot.reported = false →
    s.remoteAddr slot.uid = activeRemote slot.conn

theorem steady_iff (hT : T.Migrates activeRemote) :
    s.Steady T activeRemote a ↔ ∀ index slot, s.slab index = some slot → slot.reported = false →
      activeRemote (s.next T index slot.conn a) = activeRemote slot.conn := by
  unfold Steady
  split
  · rename_i i l r respond
    have hnext : ∀ c, s.next T i c (.command i (.migratePath l r respond)) =
        (T.migratePath c l r).2 := fun c => by simp [next, processConnCommand, onEngine]
    constructor
    · intro hsteady index slot hslot hopen
      by_cases hi : index = i
      · subst hi
        rw [hnext]
        cases hr : (T.migratePath slot.conn l r).1 with
        | ok x => rw [hT.migrated _ _ _ hr, hsteady slot hslot hopen hr]
        | error e => exact hT.refused _ _ _ e hr
      · simp [next, hi]
    · intro hsame slot hslot hopen hok
      have hmoved := hsame i slot hslot hopen
      rw [hnext, hT.migrated _ _ _ hok] at hmoved
      exact hmoved
  · exact Iff.rfl

theorem step_remoteAddr (hstep : s.step T a = some t) {uid : Nat} (huid : uid < s.nextConn) :
    t.remoteAddr uid = s.remoteAddr uid := by
  by_cases hcreated : ∃ new, a = .created new
  · obtain ⟨new, rfl⟩ := hcreated
    obtain ⟨_, rfl⟩ := step_created hstep
    exact Function.update_of_ne (Nat.ne_of_lt huid) ..
  · by_cases hclosed : ∃ index info, a = .closed index info
    · obtain ⟨index, info, rfl⟩ := hclosed
      obtain ⟨_, _, _, rfl⟩ := step_closed hstep
      rfl
    · obtain ⟨slab, rfl⟩ := step_other (fun new heq => hcreated ⟨new, heq⟩)
        (fun index info heq => hclosed ⟨index, info, heq⟩) hstep
      rfl

theorem live_step (hT : T.Migrates activeRemote) (hs : s.Placed) (hlive : s.Live activeRemote)
    (hpath : HasPath activeRemote a) (hsteady : s.Steady T activeRemote a)
    (hstep : s.step T a = some t) : t.Live activeRemote := by
  intro index slot' hslot' hopen'
  rcases step_slot hstep hslot' hopen' with ⟨slot, hslot, hopen, huid, hconn⟩ | ⟨new, rfl, rfl, rfl⟩
  · rw [huid, hconn, step_remoteAddr hstep (hs index slot hslot hopen).2,
      (steady_iff hT).mp hsteady index slot hslot hopen]
    exact hlive index slot hslot hopen
  · obtain ⟨_, rfl⟩ := step_created hstep
    simp only [Function.update_self]
    rw [show new.activePath = some (activeRemote new.conn) from hpath]
    rfl

theorem step_moves (hstep : s.step T a = some t) {index : Nat} {slot : Slot κ}
    (hslot : s.slab index = some slot) (hmoved : s.next T index slot.conn a ≠ slot.conn) :
    t.slab index = some { slot with conn := s.next T index slot.conn a } := by
  cases a with
  | created new => exact absurd rfl hmoved
  | closed i info => exact absurd rfl hmoved
  | release i => exact absurd rfl hmoved
  | engine i conn =>
    cases hstep
    simp [hslot]
  | command i cmd =>
    cases hstep
    simp [hslot]
  | closeKnown code reason =>
    cases hstep
    simp [hslot]

theorem steady_of_live (hT : T.Migrates activeRemote) (hs : s.Placed)
    (hlive : s.Live activeRemote) (hlive' : t.Live activeRemote) (hstep : s.step T a = some t) :
    s.Steady T activeRemote a := by
  apply (steady_iff hT).mpr
  intro index slot hslot hopen
  by_cases hmoved : s.next T index slot.conn a = slot.conn
  · rw [hmoved]
  · have hcopy := hlive' index _ (step_moves hstep hslot hmoved) hopen
    rw [← hcopy, ← hlive index slot hslot hopen]
    exact step_remoteAddr hstep (hs index slot hslot hopen).2

end Connections

namespace Handles
variable {T : Tquic κ} {activeRemote : κ → SocketAddr} {configError : χ → Option ConnectError}
  {s t : Handles κ χ ψ} {e : HandlesEvent κ χ ψ}

def HasPath (activeRemote : κ → SocketAddr) (configError : χ → Option ConnectError)
    (s : Handles κ χ ψ) (e : HandlesEvent κ χ ψ) : Prop :=
  ∀ a, s.task configError e = some a → Connections.HasPath activeRemote a

def Steady (T : Tquic κ) (activeRemote : κ → SocketAddr) (configError : χ → Option ConnectError)
    (s : Handles κ χ ψ) (e : HandlesEvent κ χ ψ) : Prop :=
  ∀ a, s.task configError e = some a → s.connections.Steady T activeRemote a

/-- Until a connection is reported closed, its `ConnNotify` has the remote address of the
active path, and both `remote_address` functions return it. -/
def LiveAddress (activeRemote : κ → SocketAddr) (s : Handles κ χ ψ) : Prop :=
  ∀ index slot, s.slab index = some slot → slot.reported = false →
    (s.handle.notifies slot.uid).remoteAddr = activeRemote slot.conn ∧
    s.handle.remoteAddress index = activeRemote slot.conn ∧
    ∀ self : Connecting, self.connId = some index →
      self.remoteAddress s.handle = activeRemote slot.conn

theorem liveAddress_iff (hs : s.connections.Placed) :
    s.LiveAddress activeRemote ↔ s.connections.Live activeRemote := by
  constructor
  · exact fun h index slot hslot hopen => (h index slot hslot hopen).1
  · intro h index slot hslot hopen
    have hcopy : (s.handle.notifies slot.uid).remoteAddr = activeRemote slot.conn :=
      h index slot hslot hopen
    have hstates : s.handle.connStates index = some slot.uid := (hs index slot hslot hopen).1
    refine ⟨hcopy, ?_, fun self hself => ?_⟩
    · simpa only [BridgeHandle.remoteAddress, hstates] using hcopy
    · simpa only [Connecting.remoteAddress, hself, Option.bind_some, hstates] using hcopy

theorem placed_handles (hs : s.connections.Placed) (hstep : s.step T configError e = some t) :
    t.connections.Placed := by
  have hconns := connections_step hstep
  split at hconns
  · exact Connections.placed_step hs hconns
  · rw [hconns]
    exact hs

theorem live_handles (hT : T.Migrates activeRemote) (hs : s.connections.Placed)
    (hlive : s.connections.Live activeRemote) (hpath : s.HasPath activeRemote configError e)
    (hstep : s.step T configError e = some t) :
    t.connections.Live activeRemote ↔ s.Steady T activeRemote configError e := by
  have hconns := connections_step hstep
  cases htask : s.task configError e with
  | some a =>
    rw [htask] at hconns
    constructor
    · intro hlive' a' ha'
      obtain rfl := Option.some.inj (htask.symm.trans ha')
      exact Connections.steady_of_live hT hs hlive hlive' hconns
    · exact fun hsteady =>
        Connections.live_step hT hs hlive (hpath a htask) (hsteady a htask) hconns
  | none =>
    rw [htask] at hconns
    rw [hconns]
    refine ⟨fun _ a ha => ?_, fun _ => hlive⟩
    rw [htask] at ha
    cases ha

/-- As long as the active path keeps its remote address, the reported address is the live
one; a step from there keeps it so if and only if it keeps the address of the active path. -/
theorem remote_address_live (hT : T.Migrates activeRemote)
    (configError : χ → Option ConnectError) (isServer : Bool) (s : Handles κ χ ψ)
    (hs : Reach (step T configError) (fun s e => s.HasPath activeRemote configError e ∧
      s.Steady T activeRemote configError e) (init isServer) s) :
    s.LiveAddress activeRemote ∧
    ∀ e t, s.HasPath activeRemote configError e → s.step T configError e = some t →
      (t.LiveAddress activeRemote ↔ s.Steady T activeRemote configError e) := by
  have hinv : s.connections.Placed ∧ s.connections.Live activeRemote := by
    apply hs.invariant
    · intro s e t h hguard hstep
      exact ⟨placed_handles h.1 hstep, (live_handles hT h.1 h.2 hguard.1 hstep).mpr hguard.2⟩
    · exact ⟨fun _ _ hslot => (by cases hslot), fun _ _ hslot => (by cases hslot)⟩
  refine ⟨(liveAddress_iff hinv.1).mpr hinv.2, fun e t hpath hstep => ?_⟩
  rw [liveAddress_iff (placed_handles hinv.1 hstep)]
  exact live_handles hT hinv.1 hinv.2 hpath hstep

end Handles

/-- An engine that knows of a connection only where it sends to. -/
def Tquic.roaming : Tquic SocketAddr where
  close c _ _ _ := c
  streamBidiNew c := (.error .done, c)
  streamUniNew c := (.error .done, c)
  streamWrite c _ _ _ := (.error .done, c)
  streamRead c _ _ := (.error .done, c)
  streamShutdown c _ _ _ := c
  streamSetPriority c _ _ _ := c
  pathsIter _ := []
  getPathStats _ _ _ := .error .done
  addPath c _ _ := (.ok (), c)
  abandonPath c _ _ := (.ok (), c)
  migratePath _ _ r := (.ok (), r)
  displayError _ := "error"

theorem roaming_migrates : Tquic.roaming.Migrates id :=
  ⟨fun _ _ _ _ => rfl, fun _ _ _ _ h => by cases h⟩

namespace Handles

/-- A connection that adds a path. -/
def addPathRun : List (HandlesEvent SocketAddr Unit Unit) :=
  [.connect ⟨1, 443⟩ "peer" none, .process (.ok ⟨0, ⟨1, 443⟩, some ⟨1, 443⟩⟩),
    .callback 0 .onConnEstablished, .use 0 (.poll .recv),
    .use 1 (.query (.addPath ⟨0, 1⟩ ⟨2, 443⟩)), .process (.error .done)]

theorem remote_address_live_paths :
    ∃ s : Handles SocketAddr Unit Unit,
      Reach (step Tquic.roaming fun _ => none)
        (fun s e => s.HasPath id (fun _ => none) e ∧
          s.Steady Tquic.roaming id (fun _ => none) e) (init false) s ∧
      s.handle.remoteAddress 0 = ⟨1, 443⟩ ∧ s.LiveAddress id := by
  have hquiet : ∀ (s : Handles SocketAddr Unit Unit) (e : HandlesEvent SocketAddr Unit Unit),
      s.task (fun _ => none) e = none → s.HasPath id (fun _ => none) e ∧
        s.Steady Tquic.roaming id (fun _ => none) e := by
    intro s e hnone
    constructor <;> intro a ha <;> rw [hnone] at ha <;> cases ha
  have hadd : ∀ (s : Connections SocketAddr) index conn i l r respond,
      s.next Tquic.roaming index conn (.command i (.addPath l r respond)) = conn := by
    intro s index conn i l r respond
    exact ite_self conn
  obtain ⟨s, hrun, haddr, halong⟩ : ∃ s : Handles SocketAddr Unit Unit,
      run (step Tquic.roaming fun _ => none) (init false) addPathRun = some s ∧
      s.handle.remoteAddress 0 = ⟨1, 443⟩ ∧
      Along (step Tquic.roaming fun _ => none) (fun s e => s.HasPath id (fun _ => none) e ∧
        s.Steady Tquic.roaming id (fun _ => none) e) (init false) addPathRun := by
    refine ⟨_, rfl, rfl, hquiet _ _ rfl, ⟨?_, ?_⟩, hquiet _ _ rfl, hquiet _ _ rfl, hquiet _ _ rfl,
      ⟨?_, ?_⟩, trivial⟩
    · intro a ha
      cases ha
      rfl
    · intro a ha
      cases ha
      intro _ _ _ _
      rfl
    · intro a ha
      cases ha
      trivial
    · intro a ha
      cases ha
      intro index slot _ _
      exact hadd _ _ _ _ _ _ _
  have hs := reach_of_along hrun halong
  exact ⟨s, hs, haddr, (remote_address_live roaming_migrates (fun _ => none) false s hs).1⟩

/-- After a successful `migrate_path` the old address is reported. -/
def migrateRun : List (HandlesEvent SocketAddr Unit Unit) :=
  [.connect ⟨1, 443⟩ "peer" none, .process (.ok ⟨0, ⟨1, 443⟩, some ⟨1, 443⟩⟩),
    .callback 0 .onConnEstablished, .use 0 (.poll .recv),
    .use 1 (.query (.migratePath ⟨0, 1⟩ ⟨2, 443⟩)), .process (.error .done)]

theorem migrated_address_stale :
    ¬ ∀ s : Handles SocketAddr Unit Unit,
      Reach (step Tquic.roaming fun _ => none) (HasPath id fun _ => none) (init false) s →
      s.LiveAddress id := by
  intro hall
  obtain ⟨s, hrun, hslot, haddr, hpath⟩ : ∃ s : Handles SocketAddr Unit Unit,
      run (step Tquic.roaming fun _ => none) (init false) migrateRun = some s ∧
      s.slab 0 = some ⟨0, ⟨2, 443⟩, false⟩ ∧ s.handle.remoteAddress 0 = ⟨1, 443⟩ ∧
      Along (step Tquic.roaming fun _ => none) (HasPath id fun _ => none) (init false)
        migrateRun :=
    ⟨_, rfl, rfl, rfl, fun a ha => (by cases ha), fun a ha => (by cases ha; rfl),
      fun a ha => (by cases ha), fun a ha => (by cases ha), fun a ha => (by cases ha),
      fun a ha => (by cases ha; trivial), trivial⟩
  have hlive := (hall s (reach_of_along hrun hpath) 0 _ hslot rfl).2.1
  rw [haddr] at hlive
  cases hlive

end Handles

end TokioTquic
