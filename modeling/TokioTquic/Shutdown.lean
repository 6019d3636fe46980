import TokioTquic.Async.Slots
import TokioTquic.Registry

/-!
# Shutting an endpoint down

`conn_states` keeps the indices of connections that are gone, but it has every
live one, and `open_connections` counts the live ones. So the loop of
`CloseEndpoint` reaches each live connection, and once.
-/

namespace TokioTquic
open Async
set_option autoImplicit false

universe u
variable {κ : Type u} {χ ψ : Type}

/-! ## The loop of `CloseEndpoint` -/

structure CloseCall where
  index : Nat
  app : Bool
  code : Nat
  reason : Bytes
  deriving DecidableEq

/-- The loop over the keys of `conn_states`, with the calls it makes. -/
def closeLoop (T : Tquic κ) (code : Nat) (reason : Bytes) (slab : Nat → Option (Slot κ)) :
    List Nat → (Nat → Option (Slot κ)) × List CloseCall
  | [] => (slab, [])
  | connId :: keys =>
    match slab connId with
    | some slot =>
      let conn := T.close slot.conn true code reason
      let (slab, calls) :=
        closeLoop T code reason (Function.update slab connId (some { slot with conn := conn })) keys
      (slab, ⟨connId, true, code, reason⟩ :: calls)
    | none => closeLoop T code reason slab keys

section
variable (T : Tquic κ) (code : Nat) (reason : Bytes)

theorem closeLoop_skips {keys : List Nat} {index : Nat} (hskip : index ∉ keys) :
    ∀ slab : Nat → Option (Slot κ),
      (closeLoop T code reason slab keys).1 index = slab index ∧
        (closeLoop T code reason slab keys).2.filter (·.index = index) = [] := by
  induction keys with
  | nil => exact fun slab => ⟨rfl, rfl⟩
  | cons connId keys ih =>
    intro slab
    obtain ⟨hne, hrest⟩ : index ≠ connId ∧ index ∉ keys := by simpa using hskip
    cases hslot : slab connId with
    | none =>
      simp only [closeLoop, hslot]
      exact ih hrest slab
    | some slot =>
      obtain ⟨hslab, hcalls⟩ := ih hrest
        (Function.update slab connId (some { slot with conn := T.close slot.conn true code reason }))
      simp only [closeLoop, hslot]
      refine ⟨by rw [hslab, Function.update_of_ne hne], ?_⟩
      rw [List.filter_cons_of_neg (by simpa using hne.symm), hcalls]

theorem closeLoop_hits {keys : List Nat} (hkeys : keys.Nodup) {index : Nat}
    (hmem : index ∈ keys) :
    ∀ slab : Nat → Option (Slot κ),
      (closeLoop T code reason slab keys).1 index =
        (slab index).map (fun slot => { slot with conn := T.close slot.conn true code reason }) ∧
      ((slab index).isSome → (closeLoop T code reason slab keys).2.filter (·.index = index) =
        [⟨index, true, code, reason⟩]) := by
  induction keys with
  | nil => simp at hmem
  | cons connId keys ih =>
    intro slab
    obtain ⟨hfresh, hrest⟩ := List.nodup_cons.mp hkeys
    by_cases hi : index = connId
    · subst hi
      cases hslot : slab index with
      | none =>
        simp only [closeLoop, hslot]
        exact ⟨by rw [(closeLoop_skips T code reason hfresh slab).1, hslot]; rfl, by simp⟩
      | some slot =>
        obtain ⟨hslab, hcalls⟩ := closeLoop_skips T code reason hfresh
          (Function.update slab index (some { slot with conn := T.close slot.conn true code reason }))
        simp only [closeLoop, hslot]
        refine ⟨by rw [hslab, Function.update_self]; rfl, fun _ => ?_⟩
        rw [List.filter_cons_of_pos (by simp), hcalls]
    · have hmem' : index ∈ keys := (List.mem_cons.mp hmem).resolve_left hi
      cases hslot : slab connId with
      | none =>
        simp only [closeLoop, hslot]
        exact ih hrest hmem' slab
      | some slot =>
        obtain ⟨hslab, hcalls⟩ := ih hrest hmem'
          (Function.update slab connId (some { slot with conn := T.close slot.conn true code reason }))
        rw [Function.update_of_ne hi] at hslab hcalls
        simp only [closeLoop, hslot]
        refine ⟨hslab, fun hused => ?_⟩
        rw [List.filter_cons_of_neg (by simpa using Ne.symm hi), hcalls hused]

/-- In whatever order the loop takes the keys, it closes the connections that
`conn_states` knows. -/
theorem closeLoop_known {connStates : Nat → Option Nat} {keys : List Nat}
    (hkeys : Keys connStates keys) (slab : Nat → Option (Slot κ)) :
    (closeLoop T code reason slab keys).1 = closeKnown T connStates slab code reason := by
  funext index
  cases hindex : connStates index with
  | none =>
    have hskip : index ∉ keys := fun hmem => by simpa [hindex] using (hkeys.mem index).mp hmem
    rw [(closeLoop_skips T code reason hskip slab).1]
    simp [closeKnown, hindex]
  | some uid =>
    have hmem : index ∈ keys := (hkeys.mem index).mpr (by simp [hindex])
    rw [(closeLoop_hits T code reason hkeys.nodup hmem slab).1]
    simp [closeKnown, hindex]

end

/-! ## The table and the counter -/

namespace Registry

/-- `conn_states` knows every live connection, and the counter counts them. -/
structure Complete (r : Registry) : Prop where
  known : ∀ index, (r.live index).isSome → (r.known index).isSome
  keys : ∃ keys, Keys r.known keys
  counted : ∃ live, Keys r.live live ∧ r.openConnections = live.length % 2 ^ 64

theorem fetchAdd_length (l : List Nat) (i : Nat) :
    fetchAdd (l.length % 2 ^ 64) = (i :: l).length % 2 ^ 64 := by
  simp only [fetchAdd, List.length_cons]
  omega

theorem fetchSub_length {l : List Nat} {i : Nat} (hmem : i ∈ l) :
    fetchSub (l.length % 2 ^ 64) = (l.erase i).length % 2 ^ 64 := by
  have hpos := List.length_pos_of_mem hmem
  rw [List.length_erase_of_mem hmem]
  unfold fetchSub
  split <;> omega

theorem complete_step {r r' : Registry} {a : RegistryEvent} (h : r.Complete)
    (hstep : r.step a = some r') : r'.Complete := by
  obtain ⟨live, hlive, hcount⟩ := h.counted
  obtain ⟨keys, hkeys⟩ := h.keys
  cases a with
  | created index remoteAddr isServer =>
    simp only [step] at hstep
    split at hstep
    · cases hstep
    · rename_i hfree
      cases hstep
      refine ⟨?_, ?_, index :: live, hlive.insert hfree _, ?_⟩
      · intro i hi
        by_cases hindex : i = index
        · subst hindex
          simp
        · simpa [hindex] using h.known i (by simpa [hindex] using hi)
      · by_cases hknown : (r.known index).isSome
        · exact ⟨keys, hkeys.replace hknown _⟩
        · exact ⟨index :: keys, hkeys.insert (by simpa using hknown) _⟩
      · exact (congrArg fetchAdd hcount).trans (fetchAdd_length live index)
  | closed index =>
    simp only [step] at hstep
    split at hstep
    · rename_i uid huid
      cases hstep
      refine ⟨?_, ⟨keys, hkeys⟩, live.erase index, hlive.erase index, ?_⟩
      · intro i hi
        by_cases hindex : i = index
        · subst hindex
          simp at hi
        · exact h.known i (by simpa [hindex] using hi)
      · have hmem : index ∈ live := (hlive.mem index).mpr (by simp [huid])
        exact (congrArg fetchSub hcount).trans (fetchSub_length hmem)
    · cases hstep
  | accepted =>
    simp only [step] at hstep
    split at hstep
    · cases hstep
      exact ⟨h.known, ⟨keys, hkeys⟩, live, hlive, hcount⟩
    · cases hstep
  | stopped =>
    cases hstep
    exact ⟨h.known, ⟨keys, hkeys⟩, live, hlive, hcount⟩

theorem complete_init (isServer : Bool) : (init isServer).Complete :=
  ⟨by simp [init], ⟨[], keys_empty⟩, [], keys_empty, rfl⟩

theorem closed_step {r r' : Registry} {a : RegistryEvent} (h : r.closed = true)
    (hstep : r.step a = some r') : r'.closed = true := by
  cases a with
  | created index remoteAddr isServer =>
    simp only [step] at hstep
    split at hstep <;> cases hstep
    exact h
  | closed index =>
    simp only [step] at hstep
    split at hstep <;> cases hstep
    exact h
  | accepted => simp [step, h] at hstep
  | stopped =>
    cases hstep
    rfl

end Registry

namespace Handles

theorem complete_reach {T : Tquic κ} {configError : χ → Option ConnectError} {isServer : Bool}
    {guard : Handles κ χ ψ → HandlesEvent κ χ ψ → Prop} {s : Handles κ χ ψ}
    (hs : Reach (step T configError) guard (init isServer) s) : s.registry.Complete := by
  have hreach := registry_reach hs
  rw [registry_init] at hreach
  exact hreach.invariant (fun _ _ _ hI _ hstep => Registry.complete_step hI hstep)
    (Registry.complete_init isServer)

theorem closed_reach {T : Tquic κ} {configError : χ → Option ConnectError}
    {guard : Handles κ χ ψ → HandlesEvent κ χ ψ → Prop} {s t : Handles κ χ ψ}
    (hst : Reach (step T configError) guard s t) (hs : s.handle.endpointClosed = true) :
    t.handle.endpointClosed = true :=
  (registry_reach hst).invariant (I := fun r => r.closed = true)
    (fun _ _ _ hI _ hstep => Registry.closed_step hI hstep) hs

theorem closed_refuses (T : Tquic κ) (configError : χ → Option ConnectError) {s : Handles κ χ ψ}
    (hs : s.handle.endpointClosed = true) :
    (∀ addr serverName clientConfig,
      s.step T configError (.connect addr serverName clientConfig) = some s) ∧
    s.step T configError .accept = none := by
  simp [step, accept, hs]

/-- In every reachable state `conn_states` knows the live connections and
`open_connections` counts them. Hence `CloseEndpoint` calls `close` once on each
of them, whatever the order of the keys, and from then on the endpoint neither
connects nor accepts. -/
theorem shutdown_complete (T : Tquic κ) (configError : χ → Option ConnectError) (isServer : Bool)
    (s : Handles κ χ ψ) (hs : Reach (step T configError) Any (init isServer) s) :
    (∀ index, (s.registry.live index).isSome → (s.handle.connStates index).isSome) ∧
    (∃ live, Keys s.registry.live live ∧ s.handle.openConnections = live.length % 2 ^ 64 ∧
      (live.length < 2 ^ 64 → s.handle.openConnections = live.length)) ∧
    (∃ keys, Keys s.handle.connStates keys) ∧
    ∀ origin code reason queue answer t,
      s.queue = (origin, .closeEndpoint code reason) :: queue →
      s.step T configError (.process answer) = some t →
      (∀ keys, Keys s.handle.connStates keys →
        (closeLoop T code reason s.slab keys).1 = t.slab ∧
        ∀ index, (s.registry.live index).isSome →
          (closeLoop T code reason s.slab keys).2.filter (·.index = index) =
            [⟨index, true, code, reason⟩]) ∧
      ∀ u, Reach (step T configError) Any t u →
        (∀ addr serverName clientConfig v,
          u.step T configError (.connect addr serverName clientConfig) = some v →
            v.queue = u.queue) ∧
        u.step T configError .accept = none := by
  have hcomplete := complete_reach hs
  obtain ⟨live, hlive, hcount⟩ := hcomplete.counted
  refine ⟨hcomplete.known, ⟨live, hlive, hcount, fun hlt => ?_⟩, hcomplete.keys, ?_⟩
  · exact hcount.trans (Nat.mod_eq_of_lt hlt)
  · intro origin code reason queue answer t hqueue hstep
    simp only [step, process, hqueue, processCommand] at hstep
    cases hstep
    refine ⟨fun keys hkeys => ⟨closeLoop_known T code reason hkeys s.slab, ?_⟩, ?_⟩
    · intro index hindex
      have hmem : index ∈ keys := (hkeys.mem index).mpr (hcomplete.known index hindex)
      obtain ⟨uid, huid⟩ := Option.isSome_iff_exists.mp hindex
      obtain ⟨slot, hslot, _⟩ := live_registry.mp huid
      exact (closeLoop_hits T code reason hkeys.nodup hmem s.slab).2 (by simp [hslot])
    · intro u hu
      obtain ⟨hconnect, haccept⟩ := closed_refuses T configError (closed_reach hu rfl)
      refine ⟨fun addr serverName clientConfig v hv => ?_, haccept⟩
      rw [hconnect] at hv
      cases hv
      rfl

/-- A server accepts two connections, one still in its handshake, and closes. -/
def shutdownRun : List (HandlesEvent Script Unit Unit) :=
  [.connCreated ⟨0, {}, none⟩ true, .callback 0 .onConnEstablished,
    .connCreated ⟨1, {}, none⟩ true, .closeEndpoint (.fromU32 7) []]

/-- Both connections are closed, and the queued ones are not accepted any more. -/
theorem shutdown_complete_two :
    ∃ s t : Handles Script Unit Unit,
      Reach (step Tquic.scripted fun _ => none) Any (init true) s ∧
      s.step Tquic.scripted (fun _ => none) (.process (.error .done)) = some t ∧
      s.handle.incoming.length = 2 ∧
      (∀ keys, Keys s.handle.connStates keys → ∀ index, index = 0 ∨ index = 1 →
        (closeLoop Tquic.scripted 7 [] s.slab keys).2.filter (·.index = index) =
          [⟨index, true, 7, []⟩]) ∧
      t.step Tquic.scripted (fun _ => none) .accept = none := by
  obtain ⟨s, hs, hqueue, hincoming, hzero, hone, t, ht⟩ : ∃ s : Handles Script Unit Unit,
      run (step Tquic.scripted fun _ => none) (init true) shutdownRun = some s ∧
      s.queue = [(none, .closeEndpoint 7 [])] ∧ s.handle.incoming.length = 2 ∧
      s.registry.live 0 = some 0 ∧ s.registry.live 1 = some 1 ∧
      ∃ t, s.step Tquic.scripted (fun _ => none) (.process (.error .done)) = some t :=
    ⟨_, rfl, rfl, rfl, rfl, rfl, _, rfl⟩
  have hreach := reach_any_of_run hs
  obtain ⟨hcalls, hafter⟩ := (shutdown_complete Tquic.scripted (fun _ => none) true s hreach).2.2.2
    none 7 [] [] (.error .done) t hqueue ht
  refine ⟨s, t, hreach, ht, hincoming, ?_, (hafter t (.refl t)).2⟩
  rintro keys hkeys index (rfl | rfl)
  · exact (hcalls keys hkeys).2 0 (by simp [hzero])
  · exact (hcalls keys hkeys).2 1 (by simp [hone])

end Handles

end TokioTquic
