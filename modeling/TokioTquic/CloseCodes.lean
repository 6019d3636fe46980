import TokioTquic.CloseAttribution

/-!
# Close codes from one endpoint to the other

The handles of two endpoints, each with its engine, joined by a transport that
brings a close frame to a connection only if the engine at the other end had
that error as its own. An application code that an endpoint reports was asked
for at one of the two ends, with the same reason.
-/

namespace TokioTquic
open Async
set_option autoImplicit false

universe u
variable {κ : Type u} {χ ψ : Type}

def CloseView.Same (V : CloseView κ) (c c' : κ) : Prop :=
  V.peerError c' = V.peerError c ∧ V.localError c' = V.localError c

/-- What the engine promises: only `close` sets a local error, and to what it was given. -/
structure Tquic.RecordsCloses (T : Tquic κ) (V : CloseView κ) : Prop where
  others : ({ T with close := fun c _ _ _ => c } : Tquic κ).Steps V.Same
  migratePath : ∀ c l r, V.Same c (T.migratePath c l r).2
  peerError : ∀ c app code reason, V.peerError (T.close c app code reason) = V.peerError c
  localError : ∀ c app code reason err, V.localError (T.close c app code reason) = some err →
    V.localError c = some err ∨ err = ⟨app, code, reason⟩

theorem Tquic.RecordsCloses.command {T : Tquic κ} {V : CloseView κ} (hT : T.RecordsCloses V) (c : κ)
    {cmd : ConnCommand Respond} (hcmd : cmd.closing = none) :
    V.Same c ((processConnCommand T (some c) cmd).1.getD c) := by
  have hsteps := hT.others.command (fun _ => ⟨rfl, rfl⟩) c cmd
    fun l r _ _ => hT.migratePath c l r
  cases cmd with
  | refuseIncoming => cases hcmd
  | closeConnection code reason => cases hcmd
  | _ => exact hsteps

namespace Connections

/-- Closes that were asked for, or errors that were seen, by the name of the connection. -/
abbrev Book := Nat → TquicConnError → Prop

def asks (s : Connections κ) (a : ConnectionsEvent κ) : Book := fun uid err =>
  ∃ index slot, s.slab index = some slot ∧ slot.reported = false ∧ slot.uid = uid ∧
    s.closing index a = some err

def tells (V : CloseView κ) (s : Connections κ) : Book := fun uid err =>
  ∃ index slot, s.slab index = some slot ∧ slot.reported = false ∧ slot.uid = uid ∧
    V.localError slot.conn = some err

/-- What the engine does on its own: an error of the peer is one that was `heard`, an error of
its own is not one of the application. -/
def Truthful (V : CloseView κ) (heard : Book) (s : Connections κ) : ConnectionsEvent κ → Prop
  | .created new => V.peerError new.conn = none ∧
      ∀ err, V.localError new.conn = some err → err.isApp = false
  | .engine index conn => ∀ slot, s.slab index = some slot → slot.reported = false → ∀ err,
      (V.peerError conn = some err → V.peerError slot.conn = some err ∨ heard slot.uid err) ∧
        (V.localError conn = some err → V.localError slot.conn = some err ∨ err.isApp = false)
  | .closed index info => ∀ slot, s.slab index = some slot → info = V.info slot.conn
  | _ => True

/-- Where the errors of the connections come from. -/
structure Traced (V : CloseView κ) (s : Connections κ) (asked heard : Book) : Prop where
  placed : s.Placed
  own : ∀ index slot err, s.slab index = some slot → slot.reported = false →
    V.localError slot.conn = some err → err.isApp = true → asked slot.uid err
  peer : ∀ index slot err, s.slab index = some slot → slot.reported = false →
    V.peerError slot.conn = some err → heard slot.uid err
  recorded : ∀ uid error err, s.closed uid = some error → error.closedByPeer = some err →
    err.isApp = true → asked uid err ∨ heard uid err

variable {T : Tquic κ} {V : CloseView κ} {s t : Connections κ} {a : ConnectionsEvent κ}
  {asked heard : Book}

theorem Traced.mono {asked' heard' : Book} (hs : s.Traced V asked heard)
    (hasked : ∀ uid err, asked uid err → asked' uid err)
    (hheard : ∀ uid err, heard uid err → heard' uid err) : s.Traced V asked' heard' where
  placed := hs.placed
  own := by
    intro index slot err hslot hopen herr happ
    exact hasked _ _ (hs.own index slot err hslot hopen herr happ)
  peer := by
    intro index slot err hslot hopen herr
    exact hheard _ _ (hs.peer index slot err hslot hopen herr)
  recorded := by
    intro uid error err hclosed herr happ
    exact (hs.recorded uid error err hclosed herr happ).imp (hasked _ _) (hheard _ _)

theorem next_local (hT : T.RecordsCloses V) (htrue : s.Truthful V heard a) {index : Nat}
    {slot : Slot κ} (hslot : s.slab index = some slot) (hopen : slot.reported = false) {err : TquicConnError}
    (herr : V.localError (s.next T index slot.conn a) = some err) (happ : err.isApp = true) :
    V.localError slot.conn = some err ∨ s.closing index a = some err := by
  cases a with
  | engine i conn =>
    by_cases hi : index = i
    · subst hi
      simp only [next, if_true] at herr
      rcases (htrue slot hslot hopen err).2 herr with hold | hother
      · exact Or.inl hold
      · rw [hother] at happ
        cases happ
    · simp only [next, if_neg hi] at herr
      exact Or.inl herr
  | command i cmd =>
    by_cases hi : index = i
    · subst hi
      simp only [next, if_true] at herr
      simp only [closing, if_true]
      cases hcmd : cmd.closing with
      | none =>
        rw [(hT.command slot.conn hcmd).2] at herr
        exact Or.inl herr
      | some err' =>
        cases cmd with
        | refuseIncoming =>
          cases hcmd
          apply (hT.localError _ _ _ _ _ herr).imp_right
          intro heq
          rw [heq]
        | closeConnection code reason =>
          cases hcmd
          apply (hT.localError _ _ _ _ _ herr).imp_right
          intro heq
          rw [heq]
        | _ => cases hcmd
    · simp only [next, if_neg hi] at herr
      exact Or.inl herr
  | closeKnown code reason =>
    simp only [next] at herr
    simp only [closing]
    split at herr
    · rename_i hknown
      apply (hT.localError _ _ _ _ _ herr).imp_right
      intro heq
      rw [if_pos hknown, heq]
    · exact Or.inl herr
  | created new => exact Or.inl herr
  | closed i info => exact Or.inl herr
  | release i => exact Or.inl herr

theorem next_peer (hT : T.RecordsCloses V) (htrue : s.Truthful V heard a) {index : Nat}
    {slot : Slot κ} (hslot : s.slab index = some slot) (hopen : slot.reported = false) {err : TquicConnError}
    (herr : V.peerError (s.next T index slot.conn a) = some err) :
    V.peerError slot.conn = some err ∨ heard slot.uid err := by
  cases a with
  | engine i conn =>
    by_cases hi : index = i
    · subst hi
      simp only [next, if_true] at herr
      exact (htrue slot hslot hopen err).1 herr
    · simp only [next, if_neg hi] at herr
      exact Or.inl herr
  | command i cmd =>
    by_cases hi : index = i
    · subst hi
      simp only [next, if_true] at herr
      cases hcmd : cmd.closing with
      | none =>
        rw [(hT.command slot.conn hcmd).1] at herr
        exact Or.inl herr
      | some err' =>
        cases cmd with
        | refuseIncoming =>
          rw [← hT.peerError slot.conn false 2 refused]
          exact Or.inl herr
        | closeConnection code reason =>
          rw [← hT.peerError slot.conn true code reason]
          exact Or.inl herr
        | _ => cases hcmd
    · simp only [next, if_neg hi] at herr
      exact Or.inl herr
  | closeKnown code reason =>
    simp only [next] at herr
    split at herr
    · rw [hT.peerError] at herr
      exact Or.inl herr
    · exact Or.inl herr
  | created new => exact Or.inl herr
  | closed i info => exact Or.inl herr
  | release i => exact Or.inl herr

theorem closed_recorded (hs : s.Traced V asked heard) {index : Nat} {info : CloseInfo}
    (htrue : s.Truthful V heard (.closed index info))
    (hstep : s.step T (.closed index info) = some t) {uid : Nat} {error : ConnectionError}
    {err : TquicConnError} (hclosed : t.closed uid = some error)
    (herr : error.closedByPeer = some err) (happ : err.isApp = true) :
    asked uid err ∨ heard uid err := by
  obtain ⟨slot, hslot, hopen, rfl⟩ := step_closed hstep
  simp only [(hs.placed index slot hslot hopen).1] at hclosed
  by_cases huid : uid = slot.uid
  · subst huid
    rw [Function.update_self] at hclosed
    obtain rfl := Option.some.inj hclosed
    obtain rfl : info = V.info slot.conn := htrue slot hslot
    rw [CloseInfo.error_closedByPeer] at herr
    rcases Option.or_eq_some_iff.mp herr with hpeer | ⟨-, hlocal⟩
    · exact Or.inr (hs.peer index slot err hslot hopen hpeer)
    · exact Or.inl (hs.own index slot err hslot hopen hlocal happ)
  · rw [Function.update_of_ne huid] at hclosed
    exact hs.recorded uid error err hclosed herr happ

theorem recorded_next (hs : s.Traced V asked heard) (htrue : s.Truthful V heard a)
    (hstep : s.step T a = some t) {uid : Nat} {error : ConnectionError} {err : TquicConnError}
    (hclosed : t.closed uid = some error) (herr : error.closedByPeer = some err)
    (happ : err.isApp = true) : asked uid err ∨ heard uid err := by
  cases a with
  | closed index info => exact closed_recorded hs htrue hstep hclosed herr happ
  | created new =>
    obtain ⟨-, rfl⟩ := step_created hstep
    by_cases huid : uid = s.nextConn
    · subst huid
      simp at hclosed
    · simp only [Function.update_of_ne huid] at hclosed
      exact hs.recorded uid error err hclosed herr happ
  | _ =>
    obtain ⟨slab, rfl⟩ := step_other (by simp) (by simp) hstep
    exact hs.recorded uid error err hclosed herr happ

theorem traced_step (hT : T.RecordsCloses V) (hs : s.Traced V asked heard)
    (htrue : s.Truthful V heard a) (hstep : s.step T a = some t) :
    t.Traced V (fun uid err => asked uid err ∨ s.asks a uid err) heard := by
  constructor
  · exact placed_step hs.placed hstep
  · intro index slot' err hslot' hopen' herr happ
    rcases step_slot hstep hslot' hopen' with
      ⟨slot, hslot, hopen, huid, hconn⟩ | ⟨new, rfl, rfl, rfl⟩
    · rw [huid]
      rw [hconn] at herr
      rcases next_local hT htrue hslot hopen herr happ with hold | hnew
      · exact Or.inl (hs.own index slot err hslot hopen hold happ)
      · exact Or.inr ⟨index, slot, hslot, hopen, rfl, hnew⟩
    · rw [htrue.2 err herr] at happ
      cases happ
  · intro index slot' err hslot' hopen' herr
    rcases step_slot hstep hslot' hopen' with
      ⟨slot, hslot, hopen, huid, hconn⟩ | ⟨new, rfl, rfl, rfl⟩
    · rw [huid]
      rw [hconn] at herr
      rcases next_peer hT htrue hslot hopen herr with hold | hnew
      · exact hs.peer index slot err hslot hopen hold
      · exact hnew
    · rw [htrue.1] at herr
      cases herr
  · intro uid error err hclosed herr happ
    exact (recorded_next hs htrue hstep hclosed herr happ).imp_left Or.inl

end Connections

/-! ## One endpoint -/

/-- The handles with the closes that were asked for and the errors that the engine had as
its own. -/
structure Host (κ : Type u) (χ ψ : Type) where
  sys : Handles κ χ ψ
  asked : Connections.Book
  told : Connections.Book

namespace Host

def init (isServer : Bool) : Host κ χ ψ := ⟨.init isServer, fun _ _ => False, fun _ _ => False⟩

def step (V : CloseView κ) (T : Tquic κ) (configError : χ → Option ConnectError)
    (s : Host κ χ ψ) (e : HandlesEvent κ χ ψ) : Option (Host κ χ ψ) :=
  (s.sys.step T configError e).map fun sys =>
    { sys := sys
      asked := fun uid err => s.asked uid err ∨
        ∃ a, s.sys.task configError e = some a ∧ s.sys.connections.asks a uid err
      told := fun uid err => s.told uid err ∨ sys.connections.tells V uid err }

def Truthful (V : CloseView κ) (configError : χ → Option ConnectError) (heard : Connections.Book)
    (s : Host κ χ ψ) (e : HandlesEvent κ χ ψ) : Prop :=
  ∀ a, s.sys.task configError e = some a → s.sys.connections.Truthful V heard a

/-- The errors of the engine are traced, and an application error that it had was asked for. -/
structure Traced (V : CloseView κ) (heard : Connections.Book) (s : Host κ χ ψ) : Prop where
  conns : s.sys.connections.Traced V s.asked heard
  told : ∀ uid err, s.told uid err → err.isApp = true → s.asked uid err

variable {T : Tquic κ} {V : CloseView κ} {configError : χ → Option ConnectError}
  {s t : Host κ χ ψ} {e : HandlesEvent κ χ ψ} {heard : Connections.Book}

theorem traced_init (isServer : Bool) : (init isServer : Host κ χ ψ).Traced V heard where
  conns := {
    placed := by
      intro index slot hslot
      cases hslot
    own := by
      intro index slot err hslot
      cases hslot
    peer := by
      intro index slot err hslot
      cases hslot
    recorded := by
      intro uid error err hclosed
      cases hclosed }
  told := fun uid err h => h.elim

theorem Traced.hear {heard' : Connections.Book} (hs : s.Traced V heard)
    (hheard : ∀ uid err, heard uid err → heard' uid err) : s.Traced V heard' :=
  ⟨hs.conns.mono (fun _ _ h => h) hheard, hs.told⟩

theorem told_step (hstep : s.step V T configError e = some t) {uid : Nat} {err : TquicConnError}
    (h : s.told uid err) : t.told uid err := by
  obtain ⟨sys, -, rfl⟩ := Option.map_eq_some_iff.mp hstep
  exact Or.inl h

theorem traced_step (hT : T.RecordsCloses V) (hs : s.Traced V heard)
    (htrue : s.Truthful V configError heard e) (hstep : s.step V T configError e = some t) :
    t.Traced V heard := by
  obtain ⟨sys, hsys, rfl⟩ := Option.map_eq_some_iff.mp hstep
  have hconns := Handles.connections_step hsys
  have hnew : sys.connections.Traced V (fun uid err => s.asked uid err ∨
      ∃ a, s.sys.task configError e = some a ∧ s.sys.connections.asks a uid err) heard := by
    cases htask : s.sys.task configError e with
    | some a =>
      rw [htask] at hconns
      apply (Connections.traced_step hT hs.conns (htrue a htask) hconns).mono _ fun _ _ h => h
      intro uid err h
      exact h.imp_right fun hasks => ⟨a, rfl, hasks⟩
    | none =>
      rw [htask] at hconns
      rw [hconns]
      exact hs.conns.mono (fun _ _ h => Or.inl h) fun _ _ h => h
  refine ⟨hnew, ?_⟩
  intro uid err htold happ
  rcases htold with hold | ⟨index, slot, hslot, hopen, rfl, herr⟩
  · exact Or.inl (hs.told uid err hold happ)
  · exact hnew.own index slot err hslot hopen herr happ

end Host

/-! ## Two endpoints -/

structure Hosts (κ : Type u) (χ ψ : Type) where
  left : Host κ χ ψ
  right : Host κ χ ψ

inductive HostsEvent (κ : Type u) (χ ψ : Type) where
  | left (e : HandlesEvent κ χ ψ)
  | right (e : HandlesEvent κ χ ψ)

namespace Hosts

def init (leftIsServer rightIsServer : Bool) : Hosts κ χ ψ :=
  ⟨.init leftIsServer, .init rightIsServer⟩

def step (V : CloseView κ) (T : Tquic κ) (configError : χ → Option ConnectError)
    (s : Hosts κ χ ψ) : HostsEvent κ χ ψ → Option (Hosts κ χ ψ)
  | .left e => (s.left.step V T configError e).map fun left => { s with left := left }
  | .right e => (s.right.step V T configError e).map fun right => { s with right := right }

/-- What reaches a connection of the left endpoint; `ends u v` joins it to one of the right. -/
def heardLeft (ends : Nat → Nat → Prop) (s : Hosts κ χ ψ) : Connections.Book :=
  fun u err => ∃ v, ends u v ∧ s.right.told v err

def heardRight (ends : Nat → Nat → Prop) (s : Hosts κ χ ψ) : Connections.Book :=
  fun v err => ∃ u, ends u v ∧ s.left.told u err

/-- The transport brings only what the other engine sent. -/
def Joined (V : CloseView κ) (configError : χ → Option ConnectError) (ends : Nat → Nat → Prop)
    (s : Hosts κ χ ψ) : HostsEvent κ χ ψ → Prop
  | .left e => s.left.Truthful V configError (s.heardLeft ends) e
  | .right e => s.right.Truthful V configError (s.heardRight ends) e

structure Traced (V : CloseView κ) (ends : Nat → Nat → Prop) (s : Hosts κ χ ψ) : Prop where
  left : s.left.Traced V (s.heardLeft ends)
  right : s.right.Traced V (s.heardRight ends)

variable {T : Tquic κ} {V : CloseView κ} {configError : χ → Option ConnectError}
  {ends : Nat → Nat → Prop} {s t : Hosts κ χ ψ} {e : HostsEvent κ χ ψ}

theorem traced_step (hT : T.RecordsCloses V) (hs : s.Traced V ends)
    (hjoined : s.Joined V configError ends e) (hstep : s.step V T configError e = some t) :
    t.Traced V ends := by
  cases e with
  | left e =>
    obtain ⟨left, hleft, rfl⟩ := Option.map_eq_some_iff.mp hstep
    refine ⟨Host.traced_step hT hs.left hjoined hleft, hs.right.hear ?_⟩
    rintro v err ⟨u, hends, htold⟩
    exact ⟨u, hends, Host.told_step hleft htold⟩
  | right e =>
    obtain ⟨right, hright, rfl⟩ := Option.map_eq_some_iff.mp hstep
    refine ⟨hs.left.hear ?_, Host.traced_step hT hs.right hjoined hright⟩
    rintro u err ⟨v, hends, htold⟩
    exact ⟨v, hends, Host.told_step hright htold⟩

/-- In every run of two joined endpoints an `ApplicationClosed` that either of them records
carries the code and the reason of a close that was asked for on that connection, or on its
other end. -/
theorem close_codes_survive (hT : T.RecordsCloses V) (configError : χ → Option ConnectError)
    (ends : Nat → Nat → Prop) (leftIsServer rightIsServer : Bool) (s : Hosts κ χ ψ)
    (hs : Reach (step V T configError) (Joined V configError ends)
      (init leftIsServer rightIsServer) s) (code : Nat) (reason : Bytes) :
    (∀ u, (s.left.sys.handle.notifies u).closed = some (.applicationClosed code reason) →
      s.left.asked u ⟨true, code, reason⟩ ∨
        ∃ v, ends u v ∧ s.right.asked v ⟨true, code, reason⟩) ∧
    ∀ v, (s.right.sys.handle.notifies v).closed = some (.applicationClosed code reason) →
      s.right.asked v ⟨true, code, reason⟩ ∨
        ∃ u, ends u v ∧ s.left.asked u ⟨true, code, reason⟩ := by
  have htraced : s.Traced V ends := by
    apply hs.invariant
    · exact fun s e t hs hjoined hstep => traced_step hT hs hjoined hstep
    · exact ⟨Host.traced_init leftIsServer, Host.traced_init rightIsServer⟩
  constructor
  · intro u hclosed
    rcases htraced.left.conns.recorded u _ ⟨true, code, reason⟩ hclosed rfl rfl with
      hasked | ⟨v, hends, htold⟩
    · exact Or.inl hasked
    · exact Or.inr ⟨v, hends, htraced.right.told v _ htold rfl⟩
  · intro v hclosed
    rcases htraced.right.conns.recorded v _ ⟨true, code, reason⟩ hclosed rfl rfl with
      hasked | ⟨u, hends, htold⟩
    · exact Or.inl hasked
    · exact Or.inr ⟨u, hends, htraced.left.told u _ htold rfl⟩

theorem ending_records : Tquic.ending.RecordsCloses CloseState.view := by
  have hrefl : ∀ c, CloseState.view.Same c c := fun _ => ⟨rfl, rfl⟩
  constructor
  · exact ⟨fun c _ _ _ => hrefl c, hrefl, hrefl, fun c _ _ _ => hrefl c, fun c _ _ => hrefl c,
      fun c _ _ _ => hrefl c, fun c _ _ _ => hrefl c, fun c _ _ => hrefl c, fun c _ _ => hrefl c⟩
  · exact fun c _ _ => hrefl c
  · intro c app code reason
    simp only [Tquic.ending]
    split <;> rfl
  · intro c app code reason err herr
    simp only [Tquic.ending] at herr
    split at herr
    · exact Or.inr (Option.some.inj herr).symm
    · exact Or.inl herr

/-- The left endpoint closes, and the right one learns of it. -/
def leftClosedRun : List (HostsEvent CloseState Unit Unit) :=
  [.left (.connCreated ⟨0, ⟨none, none, false⟩, some .unspecified⟩ false),
    .right (.connCreated ⟨0, ⟨none, none, false⟩, some .unspecified⟩ true),
    .left (.closeEndpoint (.fromU32 3) [1]), .left (.process (.error .done)),
    .right (.engine 0 ⟨some ⟨true, 3, [1]⟩, none, false⟩),
    .right (.callback 0 (.onConnClosed ⟨some ⟨true, 3, [1]⟩, none, false, false, false⟩))]

theorem close_codes_survive_left :
    ∃ s : Hosts CloseState Unit Unit,
      (s.right.sys.handle.notifies 0).closed = some (.applicationClosed 3 [1]) ∧
      (s.right.asked 0 ⟨true, 3, [1]⟩ ∨ ∃ u, u = 0 ∧ s.left.asked u ⟨true, 3, [1]⟩) := by
  have hnew : CloseState.view.peerError ⟨none, none, false⟩ = none ∧
      ∀ err, CloseState.view.localError ⟨none, none, false⟩ = some err → err.isApp = false := by
    refine ⟨rfl, ?_⟩
    intro err herr
    cases herr
  obtain ⟨s, hrun, hclosed, hjoined⟩ : ∃ s : Hosts CloseState Unit Unit,
      run (step CloseState.view Tquic.ending fun _ => none) (init false true) leftClosedRun =
        some s ∧
      (s.right.sys.handle.notifies 0).closed = some (.applicationClosed 3 [1]) ∧
      Along (step CloseState.view Tquic.ending fun _ => none)
        (Joined CloseState.view (fun _ => none) fun u _ => u = 0) (init false true)
        leftClosedRun := by
    refine ⟨_, rfl, rfl, fun a ha => (by cases ha; exact hnew),
      fun a ha => (by cases ha; exact hnew), fun a ha => (by cases ha),
      fun a ha => (by cases ha; trivial), ?_, ?_, trivial⟩
    · intro a ha
      cases ha
      intro slot hslot _ err
      cases hslot
      refine ⟨fun herr => ?_, fun herr => by cases herr⟩
      cases herr
      exact Or.inr ⟨0, rfl, Or.inr ⟨0, _, rfl, rfl, rfl, rfl⟩⟩
    · intro a ha
      cases ha
      intro slot hslot
      cases hslot
      rfl
  have hs := reach_of_along hrun hjoined
  exact ⟨s, hclosed, (close_codes_survive ending_records (fun _ => none) (fun u _ => u = 0) false
    true s hs 3 [1]).2 0 hclosed⟩

end Hosts

end TokioTquic
