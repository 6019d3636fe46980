import TokioTquic.Startup

/-!
# The rounds of the event loop

After the endpoint is made, the calls of the thread come in rounds: at most one
call for a branch of `select!`, then `process_connections`. The commands among
them are those the program sent, in order, and the thread leaves none behind.
-/

namespace TokioTquic
open Async
set_option autoImplicit false

universe u
variable {X : TquicTypes} {ρ : Type u}

def EndpointCall.command? :
    EndpointCall X ρ → Option (BridgeCommand (ClientConfig X) (ServerConfig X) ρ)
  | .command cmd => some cmd
  | _ => none

/-- What a branch of `select!` calls: nothing after an error of the socket. A packet is
as long as the buffer at most and comes to the address the socket was bound to. -/
def Start.Branch (env : Start X) : List (EndpointCall X ρ) → Prop
  | [] => True
  | [.recv data _ dst] => data.length ≤ EventLoop.recvBufLen ∧ dst = env.ownAddr
  | [.command _] => True
  | [.onTimeout] => True
  | _ => False

inductive Start.Rounds (env : Start X) : List (EndpointCall X ρ) → Prop where
  | nil : env.Rounds []
  | round {calls branch : List (EndpointCall X ρ)} (hcalls : env.Rounds calls)
      (hbranch : env.Branch branch) : env.Rounds (calls ++ branch ++ [.processConnections])

/-- The statements left up to the next `select!`, where a thread waits for commands. -/
def IoThread.loopWork : IoThread → Nat
  | .buildRuntime => 7
  | .fromStd => 6
  | .buildConfig => 5
  | .signalReady => 4
  | .processConnections => 3
  | .select => 2
  | .close => 1
  | .unwinding => 1
  | _ => 0

/-- The thread goes on by itself while there are commands. -/
def LoopEvent.Drains : LoopEvent X ρ → Prop
  | .thread => True
  | .command => True
  | _ => False

namespace EventLoop

def handled (s : EventLoop X ρ) : List (BridgeCommand (ClientConfig X) (ServerConfig X) ρ) :=
  s.calls.filterMap EndpointCall.command?

/-- The end of the round that has begun. -/
def owed (s : EventLoop X ρ) : List (EndpointCall X ρ) :=
  if s.thread = .processConnections then [.processConnections] else []

/-- The endpoint is made first, by what `Bridge::spawn` was given; then come whole rounds. -/
def InRounds (env : Start X) (s : EventLoop X ρ) : Prop :=
  ∃ config rounds, env.tquicConfig = .ok config ∧ env.Rounds rounds ∧
    s.calls ++ s.owed = .new config env.isServer :: rounds

structure Served (env : Start X) (s : EventLoop X ρ) : Prop where
  order : s.handled ++ s.queue = s.sent
  rounds : s.calls = [] ∨ s.InRounds env

section
variable {env : Start X} {s t : EventLoop X ρ}

theorem handled_append {calls : List (EndpointCall X ρ)} (hcalls : t.calls = s.calls ++ calls) :
    t.handled = s.handled ++ calls.filterMap EndpointCall.command? := by
  rw [handled, hcalls, List.filterMap_append, handled]

/-- What a step of a thread in the loop, or of the program beside it, does. -/
inductive LoopStep (env : Start X) (s t : EventLoop X ρ) : Prop where
  | idle {more : List (BridgeCommand (ClientConfig X) (ServerConfig X) ρ)}
      (hthread : t.thread = s.thread) (hcalls : t.calls = s.calls)
      (hqueue : t.queue = s.queue ++ more) (hsent : t.sent = s.sent ++ more)
  | branch {calls : List (EndpointCall X ρ)} (hselect : s.thread = .select)
      (hthread : t.thread = .processConnections) (hbranch : env.Branch calls)
      (hcalls : t.calls = s.calls ++ calls)
      (hqueue : s.queue = calls.filterMap EndpointCall.command? ++ t.queue)
      (hsent : t.sent = s.sent)
  | round (hprocess : s.thread = .processConnections) (hthread : t.thread = .select)
      (hcalls : t.calls = s.calls ++ [.processConnections]) (hqueue : t.queue = s.queue)
      (hsent : t.sent = s.sent)

theorem loopStep_of_step {e : LoopEvent X ρ} (hthread : s.thread.InLoop) (harcs : s.arcs ≠ 0)
    (hcaller : ∀ a, s.caller ≠ .spawnThread a) (hstep : s.step env e = some t) :
    LoopStep env s t := by
  have hended : s.thread ≠ .ended := by
    rcases hthread with h | h <;> rw [h] <;> decide
  cases e with
  | caller =>
    simp only [step, stepCaller] at hstep
    have hsame : t.thread = s.thread ∧ t.calls = s.calls ∧ t.queue = s.queue ∧
        t.sent = s.sent := by
      cases hc : s.caller with
      | spawnThread a => exact absurd hc (hcaller a)
      | recv a =>
        simp only [hc] at hstep
        split at hstep
        · cases hstep
          exact ⟨rfl, rfl, rfl, rfl⟩
        · cases hstep
          exact ⟨rfl, rfl, rfl, rfl⟩
        · split at hstep <;> cases hstep
          exact ⟨rfl, rfl, rfl, rfl⟩
      | returned r =>
        simp only [hc] at hstep
        cases hstep
      | _ =>
        simp only [hc] at hstep
        split at hstep <;> cases hstep <;> exact ⟨rfl, rfl, rfl, rfl⟩
    obtain ⟨hp, hcalls, hqueue, hsent⟩ := hsame
    exact .idle hp hcalls (by rw [hqueue, List.append_nil]) (by rw [hsent, List.append_nil])
  | thread =>
    simp only [step, stepThread] at hstep
    rcases hthread with hp | hp <;> simp only [hp] at hstep <;> cases hstep
    exact .round hp rfl rfl rfl rfl
  | packet result =>
    simp only [step] at hstep
    split at hstep
    · rename_i hp
      split at hstep <;> cases hstep
      · refine .branch hp rfl ?_ rfl rfl rfl
        exact ⟨List.length_take_le _ _, rfl⟩
      · have hnone : env.Branch ([] : List (EndpointCall X ρ)) := trivial
        exact .branch hp rfl hnone rfl rfl rfl
    · cases hstep
  | command =>
    simp only [step] at hstep
    split at hstep
    · rename_i hp
      split at hstep
      · rename_i cmd queue hqueue
        cases hstep
        have hcommand : env.Branch [(.command cmd : EndpointCall X ρ)] := trivial
        exact .branch hp rfl hcommand rfl hqueue rfl
      · cases hstep
    · cases hstep
  | timeout =>
    simp only [step] at hstep
    split at hstep <;> cases hstep
    rename_i hp
    have htimeout : env.Branch [(.onTimeout : EndpointCall X ρ)] := trivial
    exact .branch hp rfl htimeout rfl rfl rfl
  | send cmd =>
    simp only [step, if_neg hended] at hstep
    split at hstep <;> cases hstep
    exact .idle rfl rfl rfl rfl
  | cloneHandle =>
    simp only [step] at hstep
    split at hstep <;> cases hstep
    exact .idle rfl rfl (List.append_nil _).symm (List.append_nil _).symm
  | dropHandle =>
    simp only [step] at hstep
    split at hstep <;> cases hstep
    exact .idle rfl rfl (List.append_nil _).symm (List.append_nil _).symm

theorem LoopStep.order (h : LoopStep env s t) (hs : s.handled ++ s.queue = s.sent) :
    t.handled ++ t.queue = t.sent := by
  cases h with
  | idle hthread hcalls hqueue hsent =>
    rw [handled, hcalls, hqueue, hsent, ← hs, List.append_assoc, handled]
  | branch hselect hthread hbranch hcalls hqueue hsent =>
    rw [handled_append hcalls, hsent, ← hs, hqueue, List.append_assoc]
  | round hprocess hthread hcalls hqueue hsent =>
    rw [handled_append hcalls, hqueue, hsent, ← hs]
    simp [EndpointCall.command?]

theorem LoopStep.rounds (h : LoopStep env s t) (hs : s.InRounds env) : t.InRounds env := by
  obtain ⟨config, rounds, hconfig, hrounds, hcs⟩ := hs
  cases h with
  | idle hthread hcalls hqueue hsent =>
    refine ⟨config, rounds, hconfig, hrounds, ?_⟩
    rw [owed, hthread, hcalls]
    exact hcs
  | branch hselect hthread hbranch hcalls hqueue hsent =>
    have howed : s.owed = [] := by rw [owed, hselect, if_neg (by decide)]
    refine ⟨config, _, hconfig, hrounds.round hbranch, ?_⟩
    rw [howed, List.append_nil] at hcs
    rw [hcalls, hcs, owed, hthread, if_pos rfl]
    simp only [List.cons_append, List.append_assoc]
  | round hprocess hthread hcalls hqueue hsent =>
    refine ⟨config, rounds, hconfig, hrounds, ?_⟩
    rw [owed, hprocess, if_pos rfl] at hcs
    rw [hcalls, owed, hthread, if_neg (by decide), List.append_nil]
    exact hcs

theorem Phase.served (hs : Phase env s) (hloop : ¬ s.thread.InLoop) : s.Served env := by
  have hidle : s.Untouched → s.Served env := by
    intro h
    refine ⟨?_, Or.inl h.calls⟩
    rw [handled, h.calls, h.queue, h.sent]
    rfl
  cases hs with
  | early hcaller hthread hready htx h => exact hidle h
  | refused hcaller hresult hthread hsocket harcs h => exact hidle h
  | starting hcaller hspawns hspawn hthread hready htx harcs h => exact hidle h
  | built hcaller hthread hready htx harcs hresult hconfig hcalls husers hqueue hsent =>
    refine ⟨?_, Or.inr ⟨_, [], hconfig, .nil, ?_⟩⟩
    · rw [handled, hcalls, hqueue, hsent]
      rfl
    · rw [hcalls, owed, hthread, if_neg (by decide), List.append_nil]
  | ready hcaller hthread => exact absurd hthread hloop
  | running hcaller hthread => exact absurd hthread hloop
  | dying hcaller hresult hready hthread h => exact hidle h
  | failed hcaller hresult hthread h => exact hidle h

theorem stepCaller_thread (hstep : s.stepCaller env = some t) :
    t.thread = s.thread ∨ t.thread = .buildRuntime := by
  unfold stepCaller at hstep
  cases hc : s.caller with
  | spawnThread a =>
    simp only [hc] at hstep
    split at hstep <;> cases hstep
    · exact Or.inl rfl
    · exact Or.inr rfl
  | recv a =>
    simp only [hc] at hstep
    split at hstep
    · cases hstep
      exact Or.inl rfl
    · cases hstep
      exact Or.inl rfl
    · split at hstep <;> cases hstep
      exact Or.inl rfl
  | returned r =>
    simp only [hc] at hstep
    cases hstep
  | _ =>
    simp only [hc] at hstep
    split at hstep <;> cases hstep <;> exact Or.inl rfl

theorem enters_loop {e : LoopEvent X ρ} (husers : s.users = 0) (hs : ¬ s.thread.InLoop)
    (ht : t.thread.InLoop) (hstep : s.step env e = some t) :
    s.thread = .signalReady ∧ t.thread = .select ∧ t.calls = s.calls ∧ t.queue = s.queue ∧
      t.sent = s.sent := by
  have hselect : s.thread ≠ .select := fun h => hs (Or.inl h)
  rcases step_start husers hselect hstep with ⟨-, h⟩ | ⟨-, h⟩
  · rcases stepCaller_thread h with hp | hp
    · rw [hp] at ht
      exact absurd ht hs
    · rcases ht with ht | ht <;> cases hp.symm.trans ht
  · unfold stepThread at h
    cases hp : s.thread with
    | signalReady =>
      simp only [hp] at h
      cases h
      exact ⟨rfl, rfl, rfl, rfl, rfl⟩
    | select => exact absurd hp hselect
    | processConnections => exact absurd (Or.inr hp) hs
    | buildRuntime | fromStd | buildConfig =>
      simp only [hp] at h
      split at h <;> cases h <;> rcases ht with ht | ht <;> cases ht
    | close | unwinding =>
      simp only [hp] at h
      cases h
      rcases ht with ht | ht <;> cases ht
    | unborn | ended =>
      simp only [hp] at h
      cases h

/-- In the loop the endpoint is there, and the thread's two references to the handle are. -/
theorem Phase.inLoop (hs : Phase env s) (hloop : s.thread.InLoop) :
    s.users + 2 ≤ s.arcs ∧ (∀ a, s.caller ≠ .spawnThread a) ∧ s.calls ≠ [] := by
  have hmade : ∀ {a : SocketAddr}, s.Built env a → s.calls ≠ [] := by
    intro a hbuilt hnil
    obtain ⟨config, -, hhead⟩ := hbuilt.calls
    rw [hnil] at hhead
    cases hhead
  have hcontra : ∀ p : IoThread, p ≠ .select → p ≠ .processConnections → s.thread ≠ p := by
    rintro p h₁ h₂ rfl
    rcases hloop with h | h
    · exact h₁ h
    · exact h₂ h
  cases hs with
  | early hcaller hthread => exact absurd hthread (hcontra _ (by decide) (by decide))
  | refused hcaller hresult hthread => exact absurd hthread (hcontra _ (by decide) (by decide))
  | starting hcaller hspawns hspawn hthread =>
    rcases hloop with h | h <;> rw [h] at hthread <;> exact hthread.elim
  | built hcaller hthread => exact absurd hthread (hcontra _ (by decide) (by decide))
  | ready hcaller hthread hready harcs husers hbuilt =>
    refine ⟨by omega, fun a => ?_, hmade hbuilt⟩
    rw [hcaller]
    simp
  | running hcaller hthread harcs hbuilt =>
    refine ⟨by omega, fun a => ?_, hmade hbuilt⟩
    rw [hcaller]
    simp
  | dying hcaller hresult hready hthread =>
    rcases hthread with ⟨h, -⟩ | ⟨h, -⟩ <;> exact absurd h (hcontra _ (by decide) (by decide))
  | failed hcaller hresult hthread =>
    rcases hthread with ⟨h, -⟩ | ⟨h, -⟩ <;> exact absurd h (hcontra _ (by decide) (by decide))

theorem Phase.users_zero (hs : Phase env s) (hloop : ¬ s.thread.InLoop) : s.users = 0 := by
  cases hs with
  | early hcaller hthread hready htx h => exact h.users
  | refused hcaller hresult hthread hsocket harcs h => exact h.users
  | starting hcaller hspawns hspawn hthread hready htx harcs h => exact h.users
  | built hcaller hthread hready htx harcs hresult hconfig hcalls husers => exact husers
  | ready hcaller hthread => exact absurd hthread hloop
  | running hcaller hthread => exact absurd hthread hloop
  | dying hcaller hresult hready hthread h => exact h.users
  | failed hcaller hresult hthread h => exact h.users

theorem served_step {e : LoopEvent X ρ} (hphase : Phase env s) (hs : s.Served env)
    (hstep : s.step env e = some t) : t.Served env := by
  by_cases ht : t.thread.InLoop
  · by_cases hloop : s.thread.InLoop
    · obtain ⟨harcs, hcaller, hcalls⟩ := hphase.inLoop hloop
      have h := loopStep_of_step hloop (by omega) hcaller hstep
      exact ⟨h.order hs.order, Or.inr (h.rounds (hs.rounds.resolve_left hcalls))⟩
    · obtain ⟨hsignal, hselect, hcalls, hqueue, hsent⟩ :=
        enters_loop (hphase.users_zero hloop) hloop ht hstep
      have howed : t.owed = s.owed := by
        rw [owed, owed, hsignal, hselect, if_neg (by decide), if_neg (by decide)]
      refine ⟨?_, ?_⟩
      · rw [handled, hcalls, hqueue, hsent]
        exact hs.order
      · rw [InRounds, hcalls, howed]
        exact hs.rounds
  · exact (phase_step hphase hstep).served ht

theorem served_reach (hs : Reach (step env) Any (init : EventLoop X ρ) s) : s.Served env := by
  induction hs with
  | refl => exact ⟨rfl, Or.inl rfl⟩
  | tail hreach _ hstep ih => exact served_step (phase_reach hreach) ih hstep

/-! ## No command is left behind -/

/-- A command takes the place of a branch and of the end of its round. -/
def loopWork (s : EventLoop X ρ) : Nat := 2 * s.queue.length + s.thread.loopWork

theorem drains_works (env : Start X) :
    Works (step env) LoopEvent.Drains (loopWork : EventLoop X ρ → Nat) := by
  intro s e t he hstep
  cases e with
  | thread =>
    simp only [step, stepThread] at hstep
    cases hp : s.thread with
    | buildRuntime | fromStd | buildConfig =>
      simp only [hp] at hstep
      split at hstep <;> cases hstep <;> simp only [loopWork, hp, IoThread.loopWork] <;> omega
    | signalReady | processConnections | close | unwinding =>
      simp only [hp] at hstep
      cases hstep
      simp only [loopWork, hp, IoThread.loopWork]
      omega
    | unborn | select | ended =>
      simp only [hp] at hstep
      cases hstep
  | command =>
    simp only [step] at hstep
    split at hstep
    · rename_i hp
      split at hstep
      · rename_i cmd queue hqueue
        cases hstep
        simp only [loopWork, branch, hp, hqueue, IoThread.loopWork, List.length_cons]
        omega
      · rename_i hqueue
        split at hstep <;> cases hstep
        simp only [loopWork, hp, IoThread.loopWork]
        omega
    · cases hstep
  | _ => exact he.elim

theorem stays_step {e : LoopEvent X ρ} (hphase : Phase env s) (hloop : s.thread.InLoop)
    (hstep : s.step env e = some t) : t.thread.InLoop := by
  obtain ⟨harcs, hcaller, -⟩ := hphase.inLoop hloop
  cases loopStep_of_step hloop (by omega) hcaller hstep with
  | idle hthread hcalls hqueue hsent =>
    rw [hthread]
    exact hloop
  | branch hselect hthread hbranch hcalls hqueue hsent => exact Or.inr hthread
  | round hprocess hthread hcalls hqueue hsent => exact Or.inl hthread

theorem drains_step {e : LoopEvent X ρ} (he : e.Drains) (hphase : Phase env s)
    (hloop : s.thread.InLoop) (hstep : s.step env e = some t) :
    t.thread.InLoop ∧ t.sent = s.sent := by
  have harcs := (hphase.inLoop hloop).1
  cases e with
  | thread =>
    simp only [step, stepThread] at hstep
    rcases hloop with hp | hp <;> simp only [hp] at hstep <;> cases hstep
    exact ⟨Or.inl rfl, rfl⟩
  | command =>
    simp only [step] at hstep
    split at hstep
    · split at hstep
      · cases hstep
        exact ⟨Or.inr rfl, rfl⟩
      · have hsome : s.arcs ≠ 0 := by omega
        rw [if_neg hsome] at hstep
        cases hstep
    · cases hstep
  | _ => exact he.elim

theorem quiet_drained (hloop : s.thread.InLoop) (hquiet : Quiet (step env) LoopEvent.Drains s) :
    s.thread = .select ∧ s.queue = [] := by
  have hthread : s.stepThread env = none := hquiet .thread trivial
  have hselect : s.thread = .select := by
    apply hloop.resolve_right
    intro hp
    simp [stepThread, hp] at hthread
  refine ⟨hselect, ?_⟩
  cases hqueue : s.queue with
  | nil => rfl
  | cons cmd queue =>
    have hcommand := hquiet .command trivial
    simp [step, hselect, hqueue] at hcommand

end

/-- Every call on the endpoint belongs to a round, and the commands among them are those
that were sent, up to the ones in the queue. While the thread is in its loop, which it does
not leave, it works off the queue by itself, whatever else was going on before. -/
theorem loop_serves (env : Start X) (s : EventLoop X ρ)
    (hs : Reach (step env) Any (init : EventLoop X ρ) s) :
    s.handled ++ s.queue = s.sent ∧ (s.calls = [] ∨ s.InRounds env) ∧
      (s.thread.InLoop →
        (∀ t, Reach (step env) Any s t → t.thread.InLoop) ∧
        (∃ t, Reach (step env) (fun _ => LoopEvent.Drains) s t ∧
          Quiet (step env) LoopEvent.Drains t) ∧
        ∀ es t, (∀ e ∈ es, LoopEvent.Drains e) → run (step env) s es = some t →
          es.length ≤ s.loopWork ∧ (Quiet (step env) LoopEvent.Drains t →
            t.thread = .select ∧ t.handled = s.sent ∧ t.InRounds env)) := by
  have hserved := served_reach hs
  refine ⟨hserved.order, hserved.rounds, fun hloop => ⟨fun t ht => ?_,
    (drains_works env).reach_quiet s, fun es t hes hrun => ⟨?_, fun hquiet => ?_⟩⟩⟩
  · have hstays : Phase env t ∧ t.thread.InLoop := by
      apply ht.invariant _ ⟨phase_reach hs, hloop⟩
      intro u e v hu _ hstep
      exact ⟨phase_step hu.1 hstep, stays_step hu.1 hu.2 hstep⟩
    exact hstays.2
  · have hlength := (drains_works env).length_le hes hrun
    omega
  · have hdrains : Reach (step env) (fun _ => LoopEvent.Drains) s t :=
      reach_of_run (fun e he _ => hes e he) hrun
    have hstays : Phase env t ∧ t.thread.InLoop ∧ t.sent = s.sent := by
      apply hdrains.invariant _ ⟨phase_reach hs, hloop, rfl⟩
      rintro u e v ⟨hphase, hu, hsent⟩ he hstep
      obtain ⟨hv, hsame⟩ := drains_step he hphase hu hstep
      exact ⟨phase_step hphase hstep, hv, hsame.trans hsent⟩
    obtain ⟨hphase, hin, hsent⟩ := hstays
    have hend := served_reach (hs.trans (reach_any_of_run hrun))
    obtain ⟨hselect, hqueue⟩ := quiet_drained hin hquiet
    refine ⟨hselect, ?_, hend.rounds.resolve_left (hphase.inLoop hin).2.2⟩
    rw [← hsent, ← hend.order, hqueue, List.append_nil]

def serving : Start .units := { badCertificate with api := .accepting }

/-- A start, a packet and two commands; then the program drops its handles. -/
def servingRun : List (LoopEvent .units Nat) :=
  [.caller, .caller, .caller, .caller, .thread, .thread, .thread, .thread, .caller,
    .packet (.ok ([1, 2], ⟨2, 4433⟩)), .send .acceptIncoming, .thread, .cloneHandle,
    .send (.closeEndpoint 0 []), .dropHandle, .dropHandle]

/-- Both commands are handled although no handle of the program is left. -/
theorem loop_serves_dropped :
    ∃ s t : EventLoop .units Nat, run (step serving) init servingRun = some s ∧ s.users = 0 ∧
      run (step serving) s [.command, .thread, .command, .thread] = some t ∧
      t.handled = [.acceptIncoming, .closeEndpoint 0 []] ∧ t.InRounds serving := by
  obtain ⟨s, t, hrun, husers, hloop, hsent, hdrain, hquiet⟩ : ∃ s t : EventLoop .units Nat,
      run (step serving) init servingRun = some s ∧ s.users = 0 ∧ s.thread.InLoop ∧
        s.sent = [.acceptIncoming, .closeEndpoint 0 []] ∧
        run (step serving) s [.command, .thread, .command, .thread] = some t ∧
        Quiet (step serving) LoopEvent.Drains t := by
    refine ⟨_, _, rfl, rfl, Or.inl rfl, rfl, rfl, fun e he => ?_⟩
    cases e with
    | thread => rfl
    | command => rfl
    | _ => exact he.elim
  obtain ⟨-, -, hend⟩ := (loop_serves serving s (reach_any_of_run hrun)).2.2 hloop
  obtain ⟨-, hhandled, hrounds⟩ := (hend _ t (by simp [LoopEvent.Drains]) hdrain).2 hquiet
  exact ⟨s, t, hrun, husers, hdrain, hhandled.trans hsent, hrounds⟩

end EventLoop

end TokioTquic
