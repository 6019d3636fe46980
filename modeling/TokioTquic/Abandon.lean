import TokioTquic.HandleNames

/-!
# Who holds the command channel

The sender of the command channel lives in the `BridgeHandle`, and every value
holds an `Arc` of it. So do the event loop, for `process_command`, and the
transport handler inside its engine, both as long as the loop runs.
-/

namespace TokioTquic
open Async
set_option autoImplicit false

universe u
variable {κ : Type u} {χ ψ : Type}

/-- An endpoint's values and its bridge thread; `endpoints` counts the clones of
the `Endpoint`. -/
structure Owners (κ : Type u) (χ ψ : Type) where
  sys : Handles κ χ ψ
  endpoints : Nat
  running : Bool

/-- `recv` is the arm of the event loop that takes the commands. -/
inductive OwnersEvent (κ : Type u) (χ ψ : Type) where
  | cloneEndpoint
  | dropEndpoint
  | act (e : HandlesEvent κ χ ψ)
  | recv (answer : Except TquicError (NewConn κ))

/-- What `cmd_rx.recv()` yields; `closed` is `None`. -/
inductive Recv where
  | command
  | closed
  | pending
  deriving DecidableEq

namespace Owners

def init (isServer : Bool) : Owners κ χ ψ := ⟨.init isServer, 1, true⟩

def senders (s : Owners κ χ ψ) : Nat :=
  (if s.running then 2 else 0) + s.endpoints +
    (List.range s.sys.next).countP fun id => (s.sys.values id).isSome

def cmdRx (s : Owners κ χ ψ) : Recv :=
  match s.sys.queue with
  | _ :: _ => .command
  | [] => if s.senders = 0 then .closed else .pending

/-- Endpoint methods need an `Endpoint`, and what the engine does needs the
thread. The thread takes commands with `recv` only. -/
def allows (s : Owners κ χ ψ) : HandlesEvent κ χ ψ → Bool
  | .connCreated _ _ | .callback _ _ | .engine _ _ | .release _ => s.running
  | .process _ => false
  | .use _ _ => true
  | _ => s.endpoints != 0

def step (T : Tquic κ) (configError : χ → Option ConnectError) (s : Owners κ χ ψ) :
    OwnersEvent κ χ ψ → Option (Owners κ χ ψ)
  | .cloneEndpoint =>
    match s.endpoints with
    | 0 => none
    | n + 1 => some { s with endpoints := n + 2 }
  | .dropEndpoint =>
    match s.endpoints with
    | 0 => none
    | n + 1 => some { s with endpoints := n }
  | .act e =>
    if s.allows e then (s.sys.step T configError e).map fun sys => { s with sys := sys }
    else none
  | .recv answer =>
    match s.running, s.cmdRx with
    | true, .command => (s.sys.process T configError answer).map fun sys => { s with sys := sys }
    -- the loop ends, and the engine goes with it
    | true, .closed => some { s with sys := { s.sys with slab := fun _ => none }, running := false }
    | _, _ => none

def Abandoned (s : Owners κ χ ψ) : Prop :=
  s.endpoints = 0 ∧ (∀ id, s.sys.values id = none) ∧ s.sys.queue = []

def Released (s : Owners κ χ ψ) : Prop :=
  s.Abandoned → s.senders = 0 ∧ s.cmdRx = .closed

variable {T : Tquic κ} {configError : χ → Option ConnectError} {s t : Owners κ χ ψ}

/-! ## The thread keeps itself running -/

theorem cmdRx_running (hs : s.running = true) : s.cmdRx ≠ .closed := by
  have hpos : s.senders ≠ 0 := by
    simp only [senders, hs, if_true]
    omega
  unfold cmdRx
  split <;> simp [hpos]

theorem running_step {e : OwnersEvent κ χ ψ} (hs : s.running = true)
    (hstep : s.step T configError e = some t) : t.running = true := by
  cases e with
  | cloneEndpoint =>
    simp only [step] at hstep
    split at hstep <;> cases hstep
    exact hs
  | dropEndpoint =>
    simp only [step] at hstep
    split at hstep <;> cases hstep
    exact hs
  | act e =>
    simp only [step] at hstep
    split at hstep
    · obtain ⟨sys, _, rfl⟩ := Option.map_eq_some_iff.mp hstep
      exact hs
    · cases hstep
  | recv answer =>
    simp only [step] at hstep
    split at hstep
    · obtain ⟨sys, _, rfl⟩ := Option.map_eq_some_iff.mp hstep
      exact hs
    · rename_i hclosed
      exact absurd hclosed (cmdRx_running hs)
    · cases hstep

theorem named_step {e : OwnersEvent κ χ ψ} (hs : s.sys.Named)
    (hstep : s.step T configError e = some t) : t.sys.Named := by
  cases e with
  | cloneEndpoint =>
    simp only [step] at hstep
    split at hstep <;> cases hstep
    exact hs
  | dropEndpoint =>
    simp only [step] at hstep
    split at hstep <;> cases hstep
    exact hs
  | act e =>
    simp only [step] at hstep
    split at hstep
    · obtain ⟨sys, hsys, rfl⟩ := Option.map_eq_some_iff.mp hstep
      exact Handles.named_step hs hsys
    · cases hstep
  | recv answer =>
    simp only [step] at hstep
    split at hstep
    · obtain ⟨sys, hsys, rfl⟩ := Option.map_eq_some_iff.mp hstep
      exact Handles.named_step (e := .process answer) hs hsys
    · cases hstep
      exact hs
    · cases hstep

theorem senders_abandoned (hs : s.running = true) (h : s.Abandoned) :
    s.senders = 2 ∧ s.cmdRx = .pending := by
  obtain ⟨hendpoints, hvalues, hqueue⟩ := h
  have hsenders : s.senders = 2 := by simp [senders, hs, hendpoints, hvalues]
  exact ⟨hsenders, by simp [cmdRx, hqueue, hsenders]⟩

/-! ## Every endpoint can be abandoned -/

theorem drop_endpoints (n : Nat) :
    ∀ s : Owners κ χ ψ, s.endpoints = n →
      Reach (step T configError) Any s { s with endpoints := 0 } := by
  induction n with
  | zero =>
    intro s hs
    rw [← hs]
    exact .refl s
  | succ n ih =>
    intro s hs
    have hdrop : s.step T configError .dropEndpoint = some { s with endpoints := n } := by
      simp [step, hs]
    exact (Reach.single trivial hdrop).trans (ih { s with endpoints := n } rfl)

theorem dropValue_values (s : Handles κ χ ψ) (id : Nat) (origin : Option Nat) (v : Value) :
    (s.dropValue id origin v).values = Function.update s.values id none := by
  cases v with
  | sendStream self =>
    simp only [Handles.dropValue, Handles.finish]
    split <;> simp [Handles.setValue, Handles.send]
  | recvStream self rx =>
    simp only [Handles.dropValue, Handles.stop]
    split <;> simp [Handles.setValue, Handles.send]
  | _ => rfl

theorem drop_values (ids : List Nat) :
    ∀ s : Owners κ χ ψ, ∃ t, Reach (step T configError) Any s t ∧ t.endpoints = s.endpoints ∧
      ∀ id, t.sys.values id = if id ∈ ids then none else s.sys.values id := by
  induction ids with
  | nil => exact fun s => ⟨s, .refl s, rfl, by simp⟩
  | cons id ids ih =>
    intro s
    cases hv : s.sys.values id with
    | none =>
      obtain ⟨t, hst, hendpoints, hvalues⟩ := ih s
      refine ⟨t, hst, hendpoints, fun i => ?_⟩
      by_cases hi : i = id
      · subst hi
        simp [hvalues, hv]
      · simp [hvalues, hi]
    | some h =>
      have hdrop : s.step T configError (.act (.use id .drop)) =
          some { s with sys := s.sys.dropValue id h.origin h.value } := by
        simp [step, allows, Handles.step, hv, Handles.useValue]
      obtain ⟨t, hst, hendpoints, hvalues⟩ :=
        ih { s with sys := s.sys.dropValue id h.origin h.value }
      refine ⟨t, (Reach.single trivial hdrop).trans hst, hendpoints, fun i => ?_⟩
      rw [hvalues, dropValue_values]
      by_cases hi : i = id
      · subst hi
        simp
      · simp [hi]

theorem process_next (T : Tquic κ) (configError : χ → Option ConnectError) {s : Handles κ χ ψ}
    {x : Option Nat × BridgeCommand χ ψ Respond}
    {queue : List (Option Nat × BridgeCommand χ ψ Respond)} (hqueue : s.queue = x :: queue) :
    ∃ t, s.process T configError (.error .done) = some t ∧ t.queue = queue ∧
      ∀ id, s.values id = none → t.values id = none := by
  have hdeliver : ∀ (u : Handles κ χ ψ) uid y id, u.values id = none →
      (u.deliver uid y).values id = none := by
    intro u uid y id hu
    obtain ⟨_, hsame | ⟨n, reply, h, _, hold, _⟩⟩ := u.deliver_values uid y id
    · exact hsame.trans hu
    · simp [hold] at hu
  have hframe : ∀ (u : Handles κ χ ψ) uid y, (u.deliver uid y).queue = u.queue := by
    intro u uid y
    unfold Handles.deliver
    split
    · split <;> rfl
    · rfl
  obtain ⟨origin, cmd⟩ := x
  simp only [Handles.process, hqueue]
  cases cmd with
  | connect addr serverName clientConfig respond =>
    have herror : ∃ e, connectOutcome configError s.currentClientConfig clientConfig
        (.error .done : Except TquicError (NewConn κ)) = .error e := by
      unfold connectOutcome
      split <;> exact ⟨_, rfl⟩
    obtain ⟨e, he⟩ := herror
    simp only [Handles.processCommand, he]
    exact ⟨_, rfl, hframe _ _ _, fun id hid => hdeliver _ _ _ id hid⟩
  | onConn connId cmd =>
    refine ⟨_, rfl, ?_, ?_⟩
    · unfold Handles.processOnConn
      split <;> exact hframe _ _ _
    · intro id hid
      unfold Handles.processOnConn
      split <;> exact hdeliver _ _ _ id hid
  | _ => exact ⟨_, rfl, rfl, fun id hid => hid⟩

theorem drain (n : Nat) :
    ∀ s : Owners κ χ ψ, s.sys.queue.length = n → s.running = true → s.endpoints = 0 →
      (∀ id, s.sys.values id = none) →
      ∃ t, Reach (step T configError) Any s t ∧ t.Abandoned := by
  induction n with
  | zero =>
    intro s hlength _ hendpoints hvalues
    exact ⟨s, .refl s, hendpoints, hvalues, List.eq_nil_of_length_eq_zero hlength⟩
  | succ n ih =>
    intro s hlength hrunning hendpoints hvalues
    obtain ⟨x, queue, hqueue⟩ := List.exists_cons_of_length_eq_add_one hlength
    obtain ⟨sys, hsys, hrest, hkept⟩ := process_next T configError hqueue
    have hrecv : s.step T configError (.recv (.error .done)) = some { s with sys := sys } := by
      have hcommand : s.cmdRx = .command := by simp [cmdRx, hqueue]
      simp [step, hrunning, hcommand, hsys]
    have hshorter : queue.length = n := by
      rw [hqueue] at hlength
      exact Nat.succ.inj hlength
    obtain ⟨t, hst, ht⟩ := ih { s with sys := sys } (by simpa [hrest] using hshorter) hrunning
      hendpoints fun id => hkept id (hvalues id)
    exact ⟨t, (Reach.single trivial hrecv).trans hst, ht⟩

/-- The bridge thread runs for ever: in an abandoned endpoint two senders remain,
its own, and every run can be continued to an abandoned endpoint. -/
theorem bridge_outlives_endpoint (T : Tquic κ) (configError : χ → Option ConnectError)
    (isServer : Bool) (s : Owners κ χ ψ)
    (hs : Reach (step T configError) Any (init isServer) s) :
    s.running = true ∧
    (s.Abandoned → ¬ s.Released ∧ s.senders = 2 ∧ s.cmdRx = .pending) ∧
    ∃ t, Reach (step T configError) Any s t ∧ t.Abandoned ∧ ¬ t.Released := by
  have hrunning : ∀ {t : Owners κ χ ψ}, Reach (step T configError) Any (init isServer) t →
      t.running = true :=
    fun ht => ht.invariant (I := fun t => t.running = true)
      (fun _ _ _ hI _ hstep => running_step hI hstep) rfl
  have hkept : ∀ {t : Owners κ χ ψ}, Reach (step T configError) Any (init isServer) t →
      t.Abandoned → ¬ t.Released := by
    intro t ht habandoned hreleased
    have htwo := (senders_abandoned (hrunning ht) habandoned).1
    rw [(hreleased habandoned).1] at htwo
    cases htwo
  refine ⟨hrunning hs, fun h => ⟨hkept hs h, senders_abandoned (hrunning hs) h⟩, ?_⟩
  have hnamed : s.sys.Named := hs.invariant (I := fun s => s.sys.Named)
    (fun _ _ _ hI _ hstep => named_step hI hstep) (Handles.named_init isServer)
  obtain ⟨u, hsu, hendpoints, hvalues⟩ := drop_values (T := T) (List.range s.sys.next)
    { s with endpoints := 0 }
  have hu := (drop_endpoints s.endpoints s rfl).trans hsu
  have hnone : ∀ id, u.sys.values id = none := by
    intro id
    rw [hvalues]
    split
    · rfl
    · rename_i hout
      cases hv : s.sys.values id with
      | none => rfl
      | some h => exact absurd (List.mem_range.mpr (hnamed id h hv)) hout
  obtain ⟨t, hut, ht⟩ := drain u.sys.queue.length u rfl (hrunning (hs.trans hu)) hendpoints hnone
  exact ⟨t, hu.trans hut, ht, hkept (hs.trans (hu.trans hut)) ht⟩

/-- A connection is opened and its `Connecting` dropped, and so is the endpoint. -/
def abandonRun : List (OwnersEvent Script Unit Unit) :=
  [.act (.connect .unspecified "localhost" none), .recv (.ok ⟨0, {}, none⟩),
    .act (.use 0 .drop), .dropEndpoint]

theorem bridge_outlives_endpoint_connected :
    ∃ s : Owners Script Unit Unit,
      Reach (step Tquic.scripted fun _ => none) Any (init false) s ∧
      s.senders = 2 ∧ s.cmdRx = .pending := by
  obtain ⟨s, hs, hendpoints, hqueue, hvalues⟩ : ∃ s : Owners Script Unit Unit,
      run (step Tquic.scripted fun _ => none) (init false) abandonRun = some s ∧
      s.endpoints = 0 ∧ s.sys.queue = [] ∧ ∀ id, s.sys.values id = none :=
    ⟨_, rfl, rfl, rfl, fun id => match id with
      | 0 => rfl
      | _ + 1 => rfl⟩
  have houtlives := bridge_outlives_endpoint Tquic.scripted (fun _ => none) false s
    (reach_any_of_run hs)
  exact ⟨s, reach_any_of_run hs, (houtlives.2.1 ⟨hendpoints, hvalues, hqueue⟩).2⟩

theorem bridge_stays :
    ∃ s : Owners Script Unit Unit,
      Reach (step Tquic.scripted fun _ => none) Any (init false) s ∧ s.Abandoned ∧
      s.senders = 2 ∧ s.cmdRx = .pending ∧ ¬ s.Released := by
  obtain ⟨s, hs, habandoned, hsenders, hrx⟩ : ∃ s : Owners Script Unit Unit,
      run (step Tquic.scripted fun _ => none) (init false) [.dropEndpoint] = some s ∧
      s.Abandoned ∧ s.senders = 2 ∧ s.cmdRx = .pending :=
    ⟨_, rfl, ⟨rfl, fun _ => rfl, rfl⟩, rfl, rfl⟩
  refine ⟨s, reach_any_of_run hs, habandoned, hsenders, hrx, fun hreleased => ?_⟩
  have hzero := (hreleased habandoned).1
  rw [hsenders] at hzero
  cases hzero

end Owners

end TokioTquic
