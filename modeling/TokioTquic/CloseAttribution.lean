import TokioTquic.Connections

/-!
# Who closed a connection

`on_conn_closed` asks the engine for the peer's error, then for the local one,
and converts both the same way. Next to the handles this layer keeps which close
frame of the peer each connection received and which close of this side the
engine accepted.
-/

namespace TokioTquic
open Async
set_option autoImplicit false

universe u
variable {κ : Type u} {χ ψ : Type}

/-- What the engine tells about the end of a connection. `accepts` says whether
`close` returns `Ok`. -/
structure CloseView (κ : Type u) where
  peerError : κ → Option TquicConnError
  localError : κ → Option TquicConnError
  isIdleTimeout : κ → Bool
  isHandshakeTimeout : κ → Bool
  isReset : κ → Bool
  accepts : κ → Bool

namespace CloseView

def info (V : CloseView κ) (conn : κ) : CloseInfo where
  peerError := V.peerError conn
  localError := V.localError conn
  isIdleTimeout := V.isIdleTimeout conn
  isHandshakeTimeout := V.isHandshakeTimeout conn
  isReset := V.isReset conn

/-- No frame of the peer comes in, and a local error stays. -/
def Keeps (V : CloseView κ) (conn conn' : κ) : Prop :=
  V.peerError conn' = V.peerError conn ∧
    (V.localError conn ≠ none → V.localError conn' ≠ none)

theorem Keeps.refl (V : CloseView κ) (conn : κ) : V.Keeps conn conn := ⟨rfl, id⟩

end CloseView

/-- What the engine promises about its own operations: a close it accepts is its local
error from then on. -/
structure Tquic.Reports (T : Tquic κ) (V : CloseView κ) : Prop where
  steps : T.Steps V.Keeps
  migratePath : ∀ c l r, V.Keeps c (T.migratePath c l r).2
  localError : ∀ c app code reason, V.accepts c = true →
    V.localError (T.close c app code reason) = some ⟨app, code, reason⟩

/-- The error that says who closed, as `error.rs` documents it: `ApplicationClosed` and
`ConnectionClosed` carry what the peer supplied. -/
def ConnectionError.closedByPeer : ConnectionError → Option TquicConnError
  | .applicationClosed errorCode reason => some ⟨true, errorCode, reason⟩
  | .connectionClosed errorCode reason => some ⟨false, errorCode, reason⟩
  | _ => none

@[simp] theorem closedByPeer_fromTquicConnError (err : TquicConnError) :
    (ConnectionError.fromTquicConnError err).closedByPeer = some err := by
  obtain ⟨isApp, errorCode, reason⟩ := err
  cases isApp <;> rfl

theorem CloseInfo.error_closedByPeer (info : CloseInfo) :
    info.error.closedByPeer = info.peerError.or info.localError := by
  obtain ⟨peerError, localError, idle, handshake, reset⟩ := info
  cases peerError with
  | some err => exact closedByPeer_fromTquicConnError err
  | none =>
    cases localError with
    | some err => exact closedByPeer_fromTquicConnError err
    | none => cases idle <;> cases handshake <;> cases reset <;> rfl

def ConnCommand.closing {ρ : Type} : ConnCommand ρ → Option TquicConnError
  | .refuseIncoming => some ⟨false, 2, refused⟩
  | .closeConnection errorCode reason => some ⟨true, errorCode, reason⟩
  | _ => none

namespace Connections

def closing (s : Connections κ) (index : Nat) : ConnectionsEvent κ → Option TquicConnError
  | .command i cmd => if index = i then cmd.closing else none
  | .closeKnown code reason =>
    if (s.connStates index).isSome then some ⟨true, code, reason⟩ else none
  | _ => none

def received (frame : Option TquicConnError) (index : Nat) :
    ConnectionsEvent κ → Option TquicConnError
  | .engine i _ => if index = i then frame else none
  | _ => none

end Connections

/-- The first close of either side. -/
structure Causes where
  peerClose : Option TquicConnError
  localClose : Option TquicConnError

/-- The attribution the API documents. -/
def Causes.Explains (x : Causes) (error : ConnectionError) : Prop :=
  error.closedByPeer = x.peerClose ∧
    (x.peerClose = none → x.localClose ≠ none → error = .locallyClosed)

/-- `causes` is about the connection that is at an index now, `ended` about the connections
that `on_conn_closed` was called for. -/
structure Attribution (κ : Type u) (χ ψ : Type) where
  sys : Handles κ χ ψ
  causes : Nat → Causes
  ended : Nat → Option Causes

/-- `frame` is the close frame of the peer that a step of the engine processes, if any. -/
structure AttributionEvent (κ : Type u) (χ ψ : Type) where
  event : HandlesEvent κ χ ψ
  frame : Option TquicConnError

namespace Connections

/-- What happened to the connections after the event; a connection that is reported is done. -/
def causes (V : CloseView κ) (s : Connections κ) (frame : Option TquicConnError)
    (a : ConnectionsEvent κ) (causes : Nat → Causes) (index : Nat) : Causes :=
  match s.slab index with
  | none => ⟨none, none⟩
  | some slot =>
    if slot.reported then causes index
    else
      { peerClose := (causes index).peerClose.or (received frame index a)
        localClose :=
          if V.accepts slot.conn then (causes index).localClose.or (s.closing index a)
          else (causes index).localClose }

def ended (s : Connections κ) (a : ConnectionsEvent κ) (causes : Nat → Causes)
    (ended : Nat → Option Causes) : Nat → Option Causes :=
  match a with
  | .closed index _ =>
    match s.slab index with
    | some slot => Function.update ended slot.uid (some (causes index))
    | none => ended
  | _ => ended

/-- What the engine does on its own: its answers in `on_conn_closed` are those of the
connection, a peer's error is the first frame that came in, and a local error stays. -/
def Honest (V : CloseView κ) (s : Connections κ) (frame : Option TquicConnError) :
    ConnectionsEvent κ → Prop
  | .created new => V.peerError new.conn = none
  | .engine index conn => ∀ slot, s.slab index = some slot → slot.reported = false →
      V.peerError conn = (V.peerError slot.conn).or frame ∧
        (V.localError slot.conn ≠ none → V.localError conn ≠ none)
  | .closed index info => ∀ slot, s.slab index = some slot → info = V.info slot.conn
  | _ => True

/-- A connection that is reported has received a close of the peer, or has no local error. -/
def Attributable (V : CloseView κ) (s : Connections κ) : ConnectionsEvent κ → Prop
  | .closed index _ => ∀ slot, s.slab index = some slot →
      V.peerError slot.conn ≠ none ∨ V.localError slot.conn = none
  | _ => True

/-- The causes are what the engine knows. -/
structure Recorded (V : CloseView κ) (s : Connections κ) (causes : Nat → Causes)
    (ended : Nat → Option Causes) : Prop where
  placed : s.Placed
  peer : ∀ index slot, s.slab index = some slot → slot.reported = false →
    V.peerError slot.conn = (causes index).peerClose
  closes : ∀ index slot, s.slab index = some slot → slot.reported = false →
    (causes index).localClose ≠ none → V.localError slot.conn ≠ none
  fresh : ∀ uid, s.nextConn ≤ uid → ended uid = none

/-- The recorded reason of every connection that ended is the documented one. -/
def Attributed (s : Connections κ) (ended : Nat → Option Causes) : Prop :=
  ∀ uid, (ended uid = none ∧ s.closed uid = none) ∨
    ∃ x error, ended uid = some x ∧ s.closed uid = some error ∧ x.Explains error

end Connections

namespace Attribution

def init (isServer : Bool) : Attribution κ χ ψ := ⟨.init isServer, fun _ => ⟨none, none⟩, fun _ => none⟩

def step (V : CloseView κ) (T : Tquic κ) (configError : χ → Option ConnectError)
    (s : Attribution κ χ ψ) (e : AttributionEvent κ χ ψ) : Option (Attribution κ χ ψ) :=
  (s.sys.step T configError e.event).map fun sys =>
    match s.sys.task configError e.event with
    | some a =>
      { sys := sys
        causes := s.sys.connections.causes V e.frame a s.causes
        ended := s.sys.connections.ended a s.causes s.ended }
    | none => { s with sys := sys }

def Honest (V : CloseView κ) (configError : χ → Option ConnectError) (s : Attribution κ χ ψ)
    (e : AttributionEvent κ χ ψ) : Prop :=
  ∀ a, s.sys.task configError e.event = some a → s.sys.connections.Honest V e.frame a

def Attributable (V : CloseView κ) (configError : χ → Option ConnectError) (s : Attribution κ χ ψ)
    (e : AttributionEvent κ χ ψ) : Prop :=
  ∀ a, s.sys.task configError e.event = some a → s.sys.connections.Attributable V a

def Recorded (V : CloseView κ) (s : Attribution κ χ ψ) : Prop :=
  s.sys.connections.Recorded V s.causes s.ended

def Attributed (s : Attribution κ χ ψ) : Prop := s.sys.connections.Attributed s.ended

end Attribution

namespace Connections
variable {T : Tquic κ} {V : CloseView κ} {s t : Connections κ} {frame : Option TquicConnError}
  {a : ConnectionsEvent κ} {causes : Nat → Causes} {ended : Nat → Option Causes}

theorem next_keeps (hT : T.Reports V) (hhonest : s.Honest V frame a) {index : Nat} {slot : Slot κ}
    (hslot : s.slab index = some slot) (hopen : slot.reported = false) :
    V.peerError (s.next T index slot.conn a) =
        (V.peerError slot.conn).or (received frame index a) ∧
      (V.localError slot.conn ≠ none → V.localError (s.next T index slot.conn a) ≠ none) := by
  have hkeeps : ∀ {conn}, V.Keeps slot.conn conn →
      V.peerError conn = (V.peerError slot.conn).or none ∧
        (V.localError slot.conn ≠ none → V.localError conn ≠ none) := by
    intro conn h
    rw [Option.or_none]
    exact h
  cases a with
  | engine i conn =>
    by_cases hi : index = i
    · subst hi
      simpa [next, received] using hhonest slot hslot hopen
    · simp [next, received, hi]
  | command i cmd =>
    by_cases hi : index = i
    · have hcmd := hT.steps.command (CloseView.Keeps.refl V) slot.conn cmd
        fun l r _ _ => hT.migratePath slot.conn l r
      simpa [next, received, hi] using hkeeps hcmd
    · simp [next, received, hi]
  | closeKnown code reason =>
    simp only [next, received]
    split
    · exact hkeeps (hT.steps.close slot.conn true code reason)
    · exact hkeeps (CloseView.Keeps.refl V slot.conn)
  | created new => exact hkeeps (CloseView.Keeps.refl V slot.conn)
  | closed i info => exact hkeeps (CloseView.Keeps.refl V slot.conn)
  | release i => exact hkeeps (CloseView.Keeps.refl V slot.conn)

theorem next_closes (hT : T.Reports V) {index : Nat} {conn : κ} (haccepts : V.accepts conn = true)
    (hclosing : s.closing index a ≠ none) : V.localError (s.next T index conn a) ≠ none := by
  have hclose : ∀ app code reason, V.localError (T.close conn app code reason) ≠ none := by
    intro app code reason
    rw [hT.localError conn app code reason haccepts]
    exact Option.some_ne_none _
  cases a with
  | command i cmd =>
    simp only [closing] at hclosing
    split at hclosing
    · rename_i hi
      simp only [next, hi, if_true]
      cases cmd with
      | refuseIncoming => exact hclose _ _ _
      | closeConnection code reason => exact hclose _ _ _
      | _ => exact absurd rfl hclosing
    · exact absurd rfl hclosing
  | closeKnown code reason =>
    simp only [closing] at hclosing
    split at hclosing
    · rename_i hknown
      simp only [next, hknown, if_true]
      exact hclose _ _ _
    · exact absurd rfl hclosing
  | _ => exact absurd rfl hclosing

theorem created_causes {new : NewConn κ} (hstep : s.step T (.created new) = some t) :
    s.causes V frame (.created new) causes new.index = ⟨none, none⟩ := by
  simp [Connections.causes, (step_created hstep).1]

theorem recorded_step (hT : T.Reports V) (hs : s.Recorded V causes ended)
    (hhonest : s.Honest V frame a) (hstep : s.step T a = some t) :
    t.Recorded V (s.causes V frame a causes) (s.ended a causes ended) := by
  have hold : ∀ {index slot}, s.slab index = some slot → slot.reported = false →
      s.causes V frame a causes index =
        { peerClose := (causes index).peerClose.or (received frame index a)
          localClose :=
            if V.accepts slot.conn then (causes index).localClose.or (s.closing index a)
            else (causes index).localClose } := by
    intro index slot hslot hopen
    simp [Connections.causes, hslot, hopen]
  constructor
  · exact placed_step hs.placed hstep
  · intro index slot' hslot' hopen'
    rcases step_slot hstep hslot' hopen' with
      ⟨slot, hslot, hopen, _, hconn⟩ | ⟨new, rfl, rfl, rfl⟩
    · rw [hold hslot hopen, hconn, (next_keeps hT hhonest hslot hopen).1,
        hs.peer index slot hslot hopen]
    · rw [created_causes hstep]
      exact hhonest
  · intro index slot' hslot' hopen' hcloses
    rcases step_slot hstep hslot' hopen' with
      ⟨slot, hslot, hopen, _, hconn⟩ | ⟨new, rfl, rfl, rfl⟩
    · rw [hconn]
      rw [hold hslot hopen] at hcloses
      by_cases hbefore : (causes index).localClose = none
      · simp only [hbefore, Option.none_or] at hcloses
        split at hcloses
        · rename_i haccepts
          exact next_closes hT haccepts hcloses
        · exact absurd rfl hcloses
      · exact (next_keeps hT hhonest hslot hopen).2 (hs.closes index slot hslot hopen hbefore)
    · rw [created_causes hstep] at hcloses
      exact absurd rfl hcloses
  · intro uid huid
    by_cases hclosed : ∃ index info, a = .closed index info
    · obtain ⟨index, info, rfl⟩ := hclosed
      obtain ⟨slot, hslot, hopen, rfl⟩ := step_closed hstep
      have hne : uid ≠ slot.uid :=
        Nat.ne_of_gt (Nat.lt_of_lt_of_le (hs.placed index slot hslot hopen).2 huid)
      simp only [Connections.ended, hslot, Function.update_of_ne hne]
      exact hs.fresh uid huid
    · have hle : s.nextConn ≤ t.nextConn := by
        by_cases hcreated : ∃ new, a = .created new
        · obtain ⟨new, rfl⟩ := hcreated
          obtain ⟨_, rfl⟩ := step_created hstep
          exact Nat.le_succ _
        · obtain ⟨slab, rfl⟩ := step_other (fun new heq => hcreated ⟨new, heq⟩)
            (fun index info heq => hclosed ⟨index, info, heq⟩) hstep
          exact Nat.le_refl _
      have hsame : s.ended a causes ended = ended := by
        cases a with
        | closed index info => exact absurd ⟨index, info, rfl⟩ hclosed
        | _ => rfl
      rw [hsame]
      exact hs.fresh uid (Nat.le_trans hle huid)

/-- The reason `on_conn_closed` records is right if and only if the local error is not
taken for the peer's. -/
theorem explains_iff (hs : s.Recorded V causes ended) {index : Nat} {slot : Slot κ}
    (hslot : s.slab index = some slot) (hopen : slot.reported = false) :
    (causes index).Explains (V.info slot.conn).error ↔
      (V.peerError slot.conn ≠ none ∨ V.localError slot.conn = none) := by
  have hpeer := hs.peer index slot hslot hopen
  have herror : (V.info slot.conn).error.closedByPeer =
      (V.peerError slot.conn).or (V.localError slot.conn) := CloseInfo.error_closedByPeer _
  unfold Causes.Explains
  rw [herror, ← hpeer]
  constructor
  · rintro ⟨hor, _⟩
    by_contra hnot
    obtain ⟨hnone, hlocal⟩ := not_or.mp hnot
    rw [not_not.mp hnone, Option.none_or] at hor
    exact hlocal hor
  · intro hclear
    refine ⟨?_, fun hnone hcloses => ?_⟩
    · rcases hclear with hsome | hlocal
      · obtain ⟨err, herr⟩ := Option.ne_none_iff_exists'.mp hsome
        rw [herr, Option.some_or]
      · rw [hlocal, Option.or_none]
    · rcases hclear with hsome | hlocal
      · exact absurd hnone hsome
      · exact absurd hlocal (hs.closes index slot hslot hopen hcloses)

theorem attributed_closed (hs : s.Recorded V causes ended) {index : Nat} {info : CloseInfo}
    {slot : Slot κ} (hslot : s.slab index = some slot) (hopen : slot.reported = false)
    (hstep : s.step T (.closed index info) = some t) :
    s.ended (.closed index info) causes ended =
        Function.update ended slot.uid (some (causes index)) ∧
      t.closed = Function.update s.closed slot.uid (some info.error) := by
  obtain ⟨_, _, _, rfl⟩ := step_closed hstep
  refine ⟨by simp [Connections.ended, hslot], ?_⟩
  simp only [(hs.placed index slot hslot hopen).1]

theorem attributed_step (hs : s.Recorded V causes ended) (hatt : s.Attributed ended)
    (hhonest : s.Honest V frame a) (hclear : s.Attributable V a) (hstep : s.step T a = some t) :
    t.Attributed (s.ended a causes ended) := by
  intro uid
  cases a with
  | created new =>
    obtain ⟨_, rfl⟩ := step_created hstep
    by_cases huid : uid = s.nextConn
    · subst huid
      exact Or.inl ⟨hs.fresh _ (Nat.le_refl _), Function.update_self ..⟩
    · simp only [Connections.ended, Function.update_of_ne huid]
      exact hatt uid
  | closed index info =>
    obtain ⟨slot, hslot, hopen, _⟩ := step_closed hstep
    obtain ⟨hended, hclosed⟩ := attributed_closed hs hslot hopen hstep
    rw [hended, hclosed]
    by_cases huid : uid = slot.uid
    · subst huid
      refine Or.inr ⟨causes index, info.error, Function.update_self .., Function.update_self .., ?_⟩
      rw [hhonest slot hslot]
      exact (explains_iff hs hslot hopen).mpr (hclear slot hslot)
    · simpa only [Function.update_of_ne huid] using hatt uid
  | _ =>
    obtain ⟨slab, rfl⟩ := step_other (by simp) (by simp) hstep
    exact hatt uid

theorem misattributed_step (hs : s.Recorded V causes ended) (hhonest : s.Honest V frame a)
    (hclear : ¬ s.Attributable V a) (hstep : s.step T a = some t) :
    ¬ t.Attributed (s.ended a causes ended) := by
  cases a with
  | closed index info =>
    obtain ⟨slot, hslot, hopen, _⟩ := step_closed hstep
    obtain ⟨hended, hclosed⟩ := attributed_closed hs hslot hopen hstep
    intro hatt
    apply hclear
    intro slot' hslot'
    obtain rfl := Option.some.inj (hslot.symm.trans hslot')
    rcases hatt slot.uid with ⟨hnone, _⟩ | ⟨x, error, hx, herror, hexplains⟩
    · rw [hended, Function.update_self] at hnone
      cases hnone
    · rw [hended, Function.update_self] at hx
      rw [hclosed, Function.update_self] at herror
      cases hx
      cases herror
      rw [hhonest slot hslot] at hexplains
      exact (explains_iff hs hslot hopen).mp hexplains
  | _ => exact absurd trivial hclear

end Connections

namespace Attribution
variable {T : Tquic κ} {V : CloseView κ} {configError : χ → Option ConnectError}
  {s t : Attribution κ χ ψ} {e : AttributionEvent κ χ ψ}

theorem step_task (h : s.step V T configError e = some t) :
    (∃ a, s.sys.task configError e.event = some a ∧
      s.sys.connections.step T a = some t.sys.connections ∧
      t.causes = s.sys.connections.causes V e.frame a s.causes ∧
      t.ended = s.sys.connections.ended a s.causes s.ended) ∨
    (s.sys.task configError e.event = none ∧ t.sys.connections = s.sys.connections ∧
      t.causes = s.causes ∧ t.ended = s.ended) := by
  obtain ⟨sys, hsys, rfl⟩ := Option.map_eq_some_iff.mp h
  have hconns := Handles.connections_step hsys
  cases htask : s.sys.task configError e.event with
  | some a =>
    rw [htask] at hconns
    exact Or.inl ⟨a, rfl, hconns, rfl, rfl⟩
  | none =>
    rw [htask] at hconns
    exact Or.inr ⟨rfl, hconns, rfl, rfl⟩

theorem recorded_step (hT : T.Reports V) (hs : s.Recorded V) (hhonest : s.Honest V configError e)
    (hstep : s.step V T configError e = some t) : t.Recorded V := by
  unfold Recorded
  rcases step_task hstep with ⟨a, htask, hconns, hcauses, hended⟩ | ⟨_, hconns, hcauses, hended⟩
  · rw [hcauses, hended]
    exact Connections.recorded_step hT hs (hhonest a htask) hconns
  · rw [hconns, hcauses, hended]
    exact hs

theorem attributed_step (hs : s.Recorded V) (hatt : s.Attributed)
    (hhonest : s.Honest V configError e) (hclear : s.Attributable V configError e)
    (hstep : s.step V T configError e = some t) : t.Attributed := by
  unfold Attributed
  rcases step_task hstep with ⟨a, htask, hconns, _, hended⟩ | ⟨_, hconns, _, hended⟩
  · rw [hended]
    exact Connections.attributed_step hs hatt (hhonest a htask) (hclear a htask) hconns
  · rw [hconns, hended]
    exact hatt

theorem recorded_init (isServer : Bool) :
    (init isServer : Attribution κ χ ψ).Recorded V where
  placed := fun _ _ hslot => by cases hslot
  peer := fun _ _ hslot => by cases hslot
  closes := fun _ _ hslot => by cases hslot
  fresh := fun _ _ => rfl

/-- In a run in which no connection is reported closed with a local error and without a close
of the peer, every recorded reason is the documented one; a step that reports such a
connection records a close of the peer that never came. -/
theorem close_attributed (hT : T.Reports V) (configError : χ → Option ConnectError)
    (isServer : Bool) :
    (∀ s : Attribution κ χ ψ, Reach (step V T configError)
        (fun s e => s.Honest V configError e ∧ s.Attributable V configError e) (init isServer) s →
      s.Attributed) ∧
    ∀ (s : Attribution κ χ ψ) e t, Reach (step V T configError) (Honest V configError)
        (init isServer) s →
      s.Honest V configError e → ¬ s.Attributable V configError e →
      s.step V T configError e = some t → ¬ t.Attributed := by
  constructor
  · intro s hreach
    have hinv : s.Recorded V ∧ s.Attributed := by
      apply hreach.invariant
      · intro s e t hs hguard hstep
        exact ⟨recorded_step hT hs.1 hguard.1 hstep,
          attributed_step hs.1 hs.2 hguard.1 hguard.2 hstep⟩
      · exact ⟨recorded_init isServer, fun _ => Or.inl ⟨rfl, rfl⟩⟩
    exact hinv.2
  · intro s e t hreach hhonest hclear hstep
    have hs : s.Recorded V := by
      apply hreach.invariant
      · exact fun s e t hs hguard hstep => recorded_step hT hs hguard hstep
      · exact recorded_init isServer
    unfold Attributed
    rcases step_task hstep with ⟨a, htask, hconns, _, hended⟩ | ⟨htask, _⟩
    · rw [hended]
      apply Connections.misattributed_step hs (hhonest a htask) _ hconns
      intro hall
      apply hclear
      intro a' ha'
      obtain rfl := Option.some.inj (htask.symm.trans ha')
      exact hall
    · refine absurd (fun a ha => ?_) hclear
      rw [htask] at ha
      cases ha

end Attribution

/-- A connection that only knows how it ends. -/
structure CloseState where
  peerError : Option TquicConnError
  localError : Option TquicConnError
  timedOut : Bool

def CloseState.view : CloseView CloseState where
  peerError := CloseState.peerError
  localError := CloseState.localError
  isIdleTimeout := CloseState.timedOut
  isHandshakeTimeout _ := false
  isReset _ := false
  accepts s := s.peerError.isNone && s.localError.isNone && !s.timedOut

def Tquic.ending : Tquic CloseState where
  close s app code reason :=
    if CloseState.view.accepts s then { s with localError := some ⟨app, code, reason⟩ } else s
  streamBidiNew s := (.error .done, s)
  streamUniNew s := (.error .done, s)
  streamWrite s _ _ _ := (.error .done, s)
  streamRead s _ _ := (.error .done, s)
  streamShutdown s _ _ _ := s
  streamSetPriority s _ _ _ := s
  pathsIter _ := []
  getPathStats _ _ _ := .error .done
  addPath s _ _ := (.error .done, s)
  abandonPath s _ _ := (.error .done, s)
  migratePath s _ _ := (.error .done, s)
  displayError _ := "error"

theorem ending_reports : Tquic.ending.Reports CloseState.view := by
  have hrefl := CloseView.Keeps.refl CloseState.view
  refine ⟨⟨?_, hrefl, hrefl, fun c _ _ _ => hrefl c, fun c _ _ => hrefl c, fun c _ _ _ => hrefl c,
    fun c _ _ _ => hrefl c, fun c _ _ => hrefl c, fun c _ _ => hrefl c⟩, fun c _ _ => hrefl c, ?_⟩
  · intro c app code reason
    simp only [Tquic.ending]
    split
    · exact ⟨rfl, fun _ => Option.some_ne_none _⟩
    · exact hrefl c
  · intro c app code reason haccepts
    simp only [Tquic.ending, haccepts, if_true]
    rfl

namespace Attribution

/-- Closed on both sides: the endpoint closes, and then the peer's frame comes in. -/
def bothClosedRun : List (AttributionEvent CloseState Unit Unit) :=
  [⟨.connCreated ⟨0, ⟨none, none, false⟩, some .unspecified⟩ true, none⟩,
    ⟨.closeEndpoint (.fromU32 3) [], none⟩, ⟨.process (.error .done), none⟩,
    ⟨.engine 0 ⟨some ⟨true, 7, [1]⟩, some ⟨true, 3, []⟩, false⟩, some ⟨true, 7, [1]⟩⟩,
    ⟨.callback 0 (.onConnClosed ⟨some ⟨true, 7, [1]⟩, some ⟨true, 3, []⟩, false, false, false⟩),
      none⟩]

theorem close_attributed_both :
    ∃ s : Attribution CloseState Unit Unit,
      Reach (step CloseState.view Tquic.ending fun _ => none)
        (fun s e => s.Honest CloseState.view (fun _ => none) e ∧
          s.Attributable CloseState.view (fun _ => none) e) (init true) s ∧
      (s.sys.handle.notifies 0).closed = some (.applicationClosed 7 [1]) ∧ s.Attributed := by
  have hquiet : ∀ (s : Attribution CloseState Unit Unit)
      (e : AttributionEvent CloseState Unit Unit), s.sys.task (fun _ => none) e.event = none →
        s.Honest CloseState.view (fun _ => none) e ∧ s.Attributable CloseState.view (fun _ => none) e := by
    intro s e hnone
    constructor <;> intro a ha <;> rw [hnone] at ha <;> cases ha
  obtain ⟨s, hrun, hclosed, halong⟩ : ∃ s : Attribution CloseState Unit Unit,
      run (step CloseState.view Tquic.ending fun _ => none) (init true) bothClosedRun = some s ∧
      (s.sys.handle.notifies 0).closed = some (.applicationClosed 7 [1]) ∧
      Along (step CloseState.view Tquic.ending fun _ => none)
        (fun s e => s.Honest CloseState.view (fun _ => none) e ∧
          s.Attributable CloseState.view (fun _ => none) e) (init true) bothClosedRun := by
    refine ⟨_, rfl, rfl, ⟨?_, ?_⟩, hquiet _ _ rfl, ⟨?_, ?_⟩, ⟨?_, ?_⟩, ⟨?_, ?_⟩, trivial⟩
    · intro a ha
      cases ha
      rfl
    · intro a ha
      cases ha
      trivial
    · intro a ha
      cases ha
      trivial
    · intro a ha
      cases ha
      trivial
    · intro a ha
      cases ha
      intro slot hslot _
      cases hslot
      exact ⟨rfl, fun _ => Option.some_ne_none _⟩
    · intro a ha
      cases ha
      trivial
    · intro a ha
      cases ha
      intro slot hslot
      cases hslot
      rfl
    · intro a ha
      cases ha
      intro slot hslot
      cases hslot
      exact Or.inl (Option.some_ne_none _)
  have hs := reach_of_along hrun halong
  exact ⟨s, hs, hclosed, (close_attributed ending_reports (fun _ => none) true).1 s hs⟩

/-- `Connection::close` on a connection whose peer stays silent is recorded as a close of
the peer. -/
def closedRun : List (AttributionEvent CloseState Unit Unit) :=
  [⟨.connect .unspecified "peer" none, none⟩,
    ⟨.process (.ok ⟨0, ⟨none, none, false⟩, some .unspecified⟩), none⟩,
    ⟨.callback 0 .onConnEstablished, none⟩, ⟨.use 0 (.poll .recv), none⟩,
    ⟨.use 1 (.close (.fromU32 0) [1]), none⟩, ⟨.process (.error .done), none⟩,
    ⟨.callback 0 (.onConnClosed ⟨none, some ⟨true, 0, [1]⟩, false, false, false⟩), none⟩]

theorem local_close_blamed :
    ¬ ∀ s : Attribution CloseState Unit Unit,
      Reach (step CloseState.view Tquic.ending fun _ => none)
        (Honest CloseState.view fun _ => none) (init false) s → s.Attributed := by
  intro hall
  obtain ⟨s, hrun, hclosed, hended, hhonest⟩ : ∃ s : Attribution CloseState Unit Unit,
      run (step CloseState.view Tquic.ending fun _ => none) (init false) closedRun = some s ∧
      (s.sys.handle.notifies 0).closed = some (.applicationClosed 0 [1]) ∧
      s.ended 0 = some ⟨none, some ⟨true, 0, [1]⟩⟩ ∧
      Along (step CloseState.view Tquic.ending fun _ => none)
        (Honest CloseState.view fun _ => none) (init false) closedRun := by
    refine ⟨_, rfl, rfl, rfl, fun a ha => (by cases ha), fun a ha => (by cases ha; rfl),
      fun a ha => (by cases ha), fun a ha => (by cases ha), fun a ha => (by cases ha),
      fun a ha => (by cases ha; trivial), ?_, trivial⟩
    intro a ha
    cases ha
    intro slot hslot
    cases hslot
    rfl
  rcases hall s (reach_of_along hrun hhonest) 0 with ⟨hnone, _⟩ | ⟨x, error, hx, herror, hpeer, _⟩
  · rw [hended] at hnone
    cases hnone
  · rw [hended] at hx
    change (s.sys.handle.notifies 0).closed = some error at herror
    rw [hclosed] at herror
    cases hx
    cases herror
    cases hpeer

end Attribution

end TokioTquic
