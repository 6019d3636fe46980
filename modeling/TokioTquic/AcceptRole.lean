import TokioTquic.Registry

/-!
# What `accept` yields

An endpoint with a server configuration may also connect out. `on_conn_created`
asks for the role of the endpoint, not of the connection, so that everything
that is created is queued for `accept`.
-/

namespace TokioTquic
open Async
set_option autoImplicit false

universe u
variable {κ : Type u} {χ ψ : Type}

/-- `delivered` is what `accept` has yielded so far. -/
structure Acceptances (κ : Type u) (χ ψ : Type) where
  sys : Handles κ χ ψ
  delivered : List (Nat × IncomingData)

namespace Acceptances

def init : Acceptances κ χ ψ := ⟨.init true, []⟩

def yielded (s : Handles κ χ ψ) : HandlesEvent κ χ ψ → List (Nat × IncomingData)
  | .accept => s.handle.incoming.take 1
  | _ => []

def step (T : Tquic κ) (configError : χ → Option ConnectError) (a : Acceptances κ χ ψ)
    (e : HandlesEvent κ χ ψ) : Option (Acceptances κ χ ψ) :=
  (a.sys.step T configError e).map fun sys => ⟨sys, a.delivered ++ yielded a.sys e⟩

/-- Delivered and queued are the inbound connections, in the order of their creation. -/
def Faithful (a : Acceptances κ χ ψ) : Prop :=
  (a.delivered ++ a.sys.handle.incoming).map Prod.fst = a.sys.registry.inbound

def Inbound (configError : χ → Option ConnectError) (a : Acceptances κ χ ψ)
    (e : HandlesEvent κ χ ψ) : Prop :=
  ∀ index remoteAddr isServer,
    a.sys.registryEvent configError e = some (.created index remoteAddr isServer) →
      isServer = true

/-- Every connection was queued when it was created. -/
structure Logged (a : Acceptances κ χ ψ) : Prop where
  server : a.sys.isServer = true
  all : (a.delivered ++ a.sys.handle.incoming).map Prod.fst = List.range a.sys.nextConn

theorem registryEvent_accepted {configError : χ → Option ConnectError} {s : Handles κ χ ψ}
    {e : HandlesEvent κ χ ψ} (h : s.registryEvent configError e = some .accepted) :
    e = .accept := by
  cases e with
  | accept => rfl
  | callback index cb => cases cb <;> simp [Handles.registryEvent] at h
  | process answer =>
    simp only [Handles.registryEvent] at h
    split at h
    · cases h
    · rename_i cmd _ _
      cases cmd <;> simp only [Handles.commandEvent] at h
      case connect => split at h <;> cases h
      all_goals cases h
  | _ => simp [Handles.registryEvent] at h

theorem logged_step {T : Tquic κ} {configError : χ → Option ConnectError}
    {a b : Acceptances κ χ ψ} {e : HandlesEvent κ χ ψ} (h : a.Logged)
    (hstep : a.step T configError e = some b) : b.Logged := by
  obtain ⟨sys, hsys, rfl⟩ := Option.map_eq_some_iff.mp hstep
  have hevent := Handles.registry_step hsys
  have hserver : a.sys.registry.isServer = true := h.server
  have hall : (a.delivered ++ a.sys.registry.incoming).map Prod.fst =
      List.range a.sys.registry.next := h.all
  suffices hgoal : sys.registry.isServer = true ∧
      (a.delivered ++ yielded a.sys e ++ sys.registry.incoming).map Prod.fst =
        List.range sys.registry.next from ⟨hgoal.1, hgoal.2⟩
  by_cases hacc : e = .accept
  · subst hacc
    simp only [Handles.registryEvent, Registry.step] at hevent
    split at hevent
    · rename_i x incoming _ hin
      rw [← Option.some.inj hevent]
      have hyielded : yielded a.sys .accept = [x] := by
        have hincoming : a.sys.handle.incoming = x :: incoming := hin
        simp [yielded, hincoming]
      simp only [hyielded, List.append_assoc, List.singleton_append, ← hin]
      exact ⟨hserver, hall⟩
    · cases hevent
  · have hyielded : yielded a.sys e = [] := by cases e <;> first | rfl | exact absurd rfl hacc
    rw [hyielded, List.append_nil]
    cases hr : a.sys.registryEvent configError e with
    | none =>
      rw [hr] at hevent
      simp only at hevent
      rw [hevent]
      exact ⟨hserver, hall⟩
    | some r =>
      rw [hr] at hevent
      simp only at hevent
      cases r with
      | created index remoteAddr isServer =>
        simp only [Registry.step] at hevent
        split at hevent
        · cases hevent
        · rw [← Option.some.inj hevent]
          refine ⟨hserver, ?_⟩
          simp only [hserver, if_true]
          rw [← List.append_assoc, List.map_append, hall, List.range_succ]
          rfl
      | closed index =>
        simp only [Registry.step] at hevent
        split at hevent
        · rw [← Option.some.inj hevent]
          exact ⟨hserver, hall⟩
        · cases hevent
      | accepted => exact absurd (registryEvent_accepted hr) hacc
      | stopped =>
        rw [← Option.some.inj hevent]
        exact ⟨hserver, hall⟩

theorem logged_reach {T : Tquic κ} {configError : χ → Option ConnectError}
    {guard : Acceptances κ χ ψ → HandlesEvent κ χ ψ → Prop} {a b : Acceptances κ χ ψ}
    (hab : Reach (step T configError) guard a b) (h : a.Logged) : b.Logged :=
  hab.invariant (fun _ _ _ hI _ hstep => logged_step hI hstep) h

theorem logged_init : (init : Acceptances κ χ ψ).Logged := ⟨rfl, rfl⟩

/-! ## How many of them are inbound -/

theorem inbound_created {r r' : Registry} {index : Nat} {remoteAddr : SocketAddr}
    {isServer : Bool} (h : r.step (.created index remoteAddr isServer) = some r') :
    r'.next = r.next + 1 ∧
      r'.inbound = if isServer then r.inbound ++ [r.next] else r.inbound := by
  simp only [Registry.step] at h
  split at h
  · cases h
  · rw [← Option.some.inj h]
    exact ⟨rfl, rfl⟩

theorem inbound_other {r r' : Registry} {a : RegistryEvent}
    (ha : ∀ index remoteAddr isServer, a ≠ .created index remoteAddr isServer)
    (h : r.step a = some r') : r'.next = r.next ∧ r'.inbound = r.inbound := by
  cases a with
  | created index remoteAddr isServer => exact absurd rfl (ha index remoteAddr isServer)
  | closed index =>
    simp only [Registry.step] at h
    split at h <;> cases h
    exact ⟨rfl, rfl⟩
  | accepted =>
    simp only [Registry.step] at h
    split at h <;> cases h
    exact ⟨rfl, rfl⟩
  | stopped =>
    cases h
    exact ⟨rfl, rfl⟩

/-- Either nothing is created, or one connection that is inbound if its role says so. -/
theorem inbound_step {T : Tquic κ} {configError : χ → Option ConnectError}
    {a b : Acceptances κ χ ψ} {e : HandlesEvent κ χ ψ} (hstep : a.step T configError e = some b) :
    (a.Inbound configError e ∧ b.sys.registry.next = a.sys.registry.next ∧
      b.sys.registry.inbound = a.sys.registry.inbound) ∨
    ∃ index remoteAddr isServer,
      a.sys.registryEvent configError e = some (.created index remoteAddr isServer) ∧
      b.sys.registry.next = a.sys.registry.next + 1 ∧
      b.sys.registry.inbound =
        if isServer then a.sys.registry.inbound ++ [a.sys.registry.next]
        else a.sys.registry.inbound := by
  obtain ⟨sys, hsys, rfl⟩ := Option.map_eq_some_iff.mp hstep
  have hevent := Handles.registry_step hsys
  cases hr : a.sys.registryEvent configError e with
  | none =>
    rw [hr] at hevent
    simp only at hevent
    refine Or.inl ⟨fun index remoteAddr isServer heq => ?_, ?_⟩
    · simp [hr] at heq
    · simp [hevent]
  | some r =>
    rw [hr] at hevent
    simp only at hevent
    by_cases hcreated : ∃ index remoteAddr isServer, r = .created index remoteAddr isServer
    · obtain ⟨index, remoteAddr, isServer, rfl⟩ := hcreated
      exact Or.inr ⟨index, remoteAddr, isServer, rfl, inbound_created hevent⟩
    · have hother : ∀ index remoteAddr isServer, r ≠ .created index remoteAddr isServer :=
        fun index remoteAddr isServer heq => hcreated ⟨index, remoteAddr, isServer, heq⟩
      refine Or.inl ⟨fun index remoteAddr isServer heq => ?_, inbound_other hother hevent⟩
      rw [hr] at heq
      exact absurd (Option.some.inj heq) (hother index remoteAddr isServer)

theorem inbound_length (s : Handles κ χ ψ) : s.registry.inbound.length ≤ s.registry.next := by
  have hle := List.length_filter_le (fun uid => (s.handle.notifies uid).isServer)
    (List.range s.nextConn)
  simpa [Handles.registry] using hle

theorem all_inbound_step {T : Tquic κ} {configError : χ → Option ConnectError}
    {a b : Acceptances κ χ ψ} {e : HandlesEvent κ χ ψ}
    (h : a.sys.registry.inbound = List.range a.sys.registry.next)
    (hguard : a.Inbound configError e) (hstep : a.step T configError e = some b) :
    b.sys.registry.inbound = List.range b.sys.registry.next := by
  rcases inbound_step hstep with ⟨_, hnext, hsame⟩ | ⟨index, addr, isServer, hr, hnext, hnew⟩
  · rw [hnext, hsame, h]
  · have hrole := hguard index addr isServer hr
    rw [hnext, hnew, hrole, if_pos rfl, h, List.range_succ]

theorem outgoing_step {T : Tquic κ} {configError : χ → Option ConnectError}
    {a b : Acceptances κ χ ψ} {e : HandlesEvent κ χ ψ}
    (h : a.sys.registry.inbound.length < a.sys.registry.next)
    (hstep : a.step T configError e = some b) :
    b.sys.registry.inbound.length < b.sys.registry.next := by
  rcases inbound_step hstep with ⟨_, hnext, hsame⟩ | ⟨index, addr, isServer, hr, hnext, hnew⟩
  · rw [hnext, hsame]
    exact h
  · rw [hnext, hnew]
    cases isServer <;> simp <;> omega

theorem not_faithful {a : Acceptances κ χ ψ} (h : a.Logged)
    (hout : a.sys.registry.inbound.length < a.sys.registry.next) : ¬ a.Faithful := by
  intro hfaithful
  have hall : a.sys.registry.inbound = List.range a.sys.registry.next :=
    hfaithful.symm.trans h.all
  rw [hall, List.length_range] at hout
  exact absurd hout (Nat.lt_irrefl _)

/-- On a server endpoint `accept` yields exactly the inbound connections as long
as no outgoing one is created, and not any more from then on. -/
theorem accept_yields_inbound (T : Tquic κ) (configError : χ → Option ConnectError) :
    (∀ a : Acceptances κ χ ψ,
      Reach (step T configError) (Inbound configError) init a → a.Faithful) ∧
    ∀ (a : Acceptances κ χ ψ) (e : HandlesEvent κ χ ψ) (b c : Acceptances κ χ ψ),
      Reach (step T configError) Any init a →
      ¬ a.Inbound configError e → a.step T configError e = some b →
      Reach (step T configError) Any b c → ¬ c.Faithful := by
  constructor
  · intro a ha
    have hall : a.sys.registry.inbound = List.range a.sys.registry.next :=
      ha.invariant (I := fun a => a.sys.registry.inbound = List.range a.sys.registry.next)
        (fun _ _ _ hI hguard hstep => all_inbound_step hI hguard hstep) rfl
    exact (logged_reach ha logged_init).all.trans hall.symm
  · intro a e b c ha hout hstep hbc
    have hb : b.sys.registry.inbound.length < b.sys.registry.next := by
      rcases inbound_step hstep with ⟨hin, _⟩ | ⟨index, addr, isServer, hr, hnext, hnew⟩
      · exact absurd hin hout
      · cases isServer with
        | true =>
          refine absurd (fun index' addr' isServer' heq => ?_) hout
          rw [hr] at heq
          cases heq
          rfl
        | false =>
          rw [hnext, hnew]
          exact Nat.lt_succ_of_le (inbound_length a.sys)
    have hc : c.sys.registry.inbound.length < c.sys.registry.next :=
      hbc.invariant (I := fun c => c.sys.registry.inbound.length < c.sys.registry.next)
        (fun _ _ _ hI _ hstep => outgoing_step hI hstep) hb
    have hlogged := logged_reach hbc (logged_step (logged_reach ha logged_init) hstep)
    exact not_faithful hlogged hc

theorem accept_yields_inbound_two :
    ∃ a : Acceptances Script Unit Unit,
      Reach (step Tquic.scripted fun _ => none) (Inbound fun _ => none) init a ∧
      a.delivered = [(0, ⟨0, .unspecified⟩)] ∧ a.Faithful := by
  obtain ⟨a, ha, hdelivered⟩ : ∃ a : Acceptances Script Unit Unit,
      Reach (step Tquic.scripted fun _ => none) (Inbound fun _ => none) init a ∧
      a.delivered = [(0, ⟨0, .unspecified⟩)] :=
    ⟨_, (((Reach.refl _).event (.connCreated ⟨0, {}, none⟩ true)
      (by
        intro index addr isServer h
        cases h
        rfl) rfl).event (.connCreated ⟨1, {}, none⟩ true)
      (by
        intro index addr isServer h
        cases h
        rfl) rfl).event .accept (by exact fun _ _ _ h => nomatch h) rfl, rfl⟩
  exact ⟨a, ha, hdelivered, (accept_yields_inbound Tquic.scripted fun _ => none).1 a ha⟩

/-- A server endpoint connects out, and `accept` yields its own connection. -/
theorem accept_yields_outgoing :
    ∃ a : Acceptances Script Unit Unit,
      Reach (step Tquic.scripted fun _ => none) Any init a ∧
      a.delivered = [(0, ⟨0, .unspecified⟩)] ∧ a.sys.registry.inbound = [] ∧ ¬ a.Faithful := by
  obtain ⟨a, ha, hdelivered, hinbound, hincoming⟩ : ∃ a : Acceptances Script Unit Unit,
      run (step Tquic.scripted fun _ => none) init
        [.connect .unspecified "localhost" none, .process (.ok ⟨0, {}, none⟩), .accept] =
          some a ∧
      a.delivered = [(0, ⟨0, .unspecified⟩)] ∧ a.sys.registry.inbound = [] ∧
      a.sys.handle.incoming = [] := ⟨_, rfl, rfl, rfl, rfl⟩
  refine ⟨a, reach_any_of_run ha, hdelivered, hinbound, ?_⟩
  simp [Faithful, hdelivered, hinbound, hincoming]

end Acceptances

end TokioTquic
