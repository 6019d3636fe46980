import TokioTquic.EventLoop
import TokioTquic.Async.Work

/-!
# What `Bridge::spawn` returns

The caller and the new thread run side by side, yet the outcome is that of one
program that makes their steps in a row. It always comes, and with an error
nothing is left behind.
-/

namespace TokioTquic
open Async
set_option autoImplicit false

universe u
variable {X : TquicTypes} {ρ : Type u}

def Start.bridge (env : Start X) : Except String (TquicConfig X) :=
  match env.fromStd with
  | .error e => .error e
  | .ok () => env.tquicConfig

/-- `Bridge::spawn` with the start of the thread as one sequential program. -/
def Start.result (env : Start X) : Except StartError SocketAddr :=
  match env.bind with
  | .error e => .error (.system e)
  | .ok () =>
    match env.setNonblocking with
    | .error e => .error (.system e)
    | .ok () =>
      match env.localAddr with
      | .error e => .error (.system e)
      | .ok localAddr =>
        match env.spawnThread with
        | .error e => .error (.other e)
        | .ok () =>
          match env.buildRuntime with
          | .error e => .error (.other e)
          | .ok () =>
            match env.bridge with
            | .error _ => .error (.other "bridge thread died during startup")
            | .ok _ => .ok localAddr

/-- The caller has got as far as the thread. -/
structure Start.Spawns (env : Start X) (localAddr : SocketAddr) : Prop where
  bind : env.bind = .ok ()
  setNonblocking : env.setNonblocking = .ok ()
  localAddr : env.localAddr = .ok localAddr

/-- What the caller has behind it as long as there is no thread. -/
def Start.Asked (env : Start X) (arcs : Nat) : SpawnPoint → Prop
  | .bind => True
  | .setNonblocking => env.bind = .ok ()
  | .localAddr => env.bind = .ok () ∧ env.setNonblocking = .ok ()
  | .spawnThread localAddr => env.Spawns localAddr ∧ arcs = 1
  | _ => False

/-- What the thread has behind it on its way to the loop. -/
def Start.Passed (env : Start X) : IoThread → Prop
  | .buildRuntime => True
  | .fromStd => env.buildRuntime = .ok ()
  | .buildConfig => env.buildRuntime = .ok () ∧ env.fromStd = .ok ()
  | _ => False

section
variable {env : Start X} {a : SocketAddr} {e : String}

theorem Start.Spawns.result_runtime (h : env.Spawns a) (hspawn : env.spawnThread = .ok ())
    (he : env.buildRuntime = .error e) : env.result = .error (.other e) := by
  simp only [Start.result, h.bind, h.setNonblocking, h.localAddr, hspawn, he]

theorem Start.Spawns.result_bridge (h : env.Spawns a) (hspawn : env.spawnThread = .ok ())
    (hruntime : env.buildRuntime = .ok ()) (he : env.bridge = .error e) :
    env.result = .error (.other "bridge thread died during startup") := by
  simp only [Start.result, h.bind, h.setNonblocking, h.localAddr, hspawn, hruntime, he]

theorem Start.Spawns.result_ok (h : env.Spawns a) (hspawn : env.spawnThread = .ok ())
    (hruntime : env.buildRuntime = .ok ()) {config : TquicConfig X}
    (hconfig : env.bridge = .ok config) : env.result = .ok a := by
  simp only [Start.result, h.bind, h.setNonblocking, h.localAddr, hspawn, hruntime, hconfig]

end

namespace IoThread

def InLoop (p : IoThread) : Prop := p = .select ∨ p = .processConnections

def Alive (p : IoThread) : Prop := p ≠ .unborn ∧ p ≠ .ended

/-- The statements that are left up to the loop, or to the end of a round. -/
def work : IoThread → Nat
  | .buildRuntime => 7
  | .fromStd => 6
  | .buildConfig => 5
  | .signalReady => 4
  | .processConnections => 1
  | .close => 1
  | .unwinding => 1
  | _ => 0

end IoThread

def SpawnPoint.work : SpawnPoint → Nat
  | .bind => 13
  | .setNonblocking => 12
  | .localAddr => 11
  | .spawnThread _ => 10
  | .recv _ => 1
  | .returned _ => 0

/-- The two threads go on by themselves, outside of `select!`. -/
def LoopEvent.Own : LoopEvent X ρ → Prop
  | .caller => True
  | .thread => True
  | _ => False

namespace EventLoop

structure Untouched (s : EventLoop X ρ) : Prop where
  users : s.users = 0
  queue : s.queue = []
  sent : s.sent = []
  calls : s.calls = []

/-- The endpoint is there, and no later step of the start can fail. -/
structure Built (env : Start X) (s : EventLoop X ρ) (a : SocketAddr) : Prop where
  result : env.result = .ok a
  calls : ∃ config, env.tquicConfig = .ok config ∧
    s.calls.head? = some (.new config env.isServer)

/-- How far a start has come, with the answers it got on the way. -/
inductive Phase (env : Start X) (s : EventLoop X ρ) : Prop where
  | early (hcaller : env.Asked s.arcs s.caller) (hthread : s.thread = .unborn)
      (hready : s.ready = none) (htx : s.readyTx = true) (hidle : s.Untouched)
  | refused {error : StartError} (hcaller : s.caller = .returned (.error error))
      (hresult : env.result = .error error) (hthread : s.thread = .unborn)
      (hsocket : s.socket = false) (harcs : s.arcs = 0) (hidle : s.Untouched)
  | starting {a : SocketAddr} (hcaller : s.caller = .recv a) (hspawns : env.Spawns a)
      (hspawn : env.spawnThread = .ok ()) (hthread : env.Passed s.thread) (hready : s.ready = none)
      (htx : s.readyTx = true) (harcs : s.arcs = 2) (hidle : s.Untouched)
  | built {a : SocketAddr} {config : TquicConfig X} (hcaller : s.caller = .recv a)
      (hthread : s.thread = .signalReady) (hready : s.ready = none) (htx : s.readyTx = true)
      (harcs : s.arcs = 3) (hresult : env.result = .ok a) (hconfig : env.tquicConfig = .ok config)
      (hcalls : s.calls = [.new config env.isServer]) (husers : s.users = 0)
      (hqueue : s.queue = []) (hsent : s.sent = [])
  | ready {a : SocketAddr} (hcaller : s.caller = .recv a) (hthread : s.thread.InLoop)
      (hready : s.ready = some (.ok ())) (harcs : s.arcs = 3) (husers : s.users = 0)
      (hbuilt : s.Built env a)
  | running {a : SocketAddr} (hcaller : s.caller = .returned (.ok a)) (hthread : s.thread.InLoop)
      (harcs : s.arcs = s.users + 2) (hbuilt : s.Built env a)
  | dying {a : SocketAddr} {error : StartError} (hcaller : s.caller = .recv a)
      (hresult : env.result = .error error)
      (hready : s.ready = none ∧ error = .other "bridge thread died during startup" ∨
        ∃ e, s.ready = some (.error e) ∧ error = .other e)
      (hthread : s.thread = .unwinding ∧ s.readyTx = true ∧ s.arcs = 2 ∨
        s.thread = .ended ∧ s.readyTx = false ∧ s.socket = false ∧ s.arcs = 1) (hidle : s.Untouched)
  | failed {error : StartError} (hcaller : s.caller = .returned (.error error))
      (hresult : env.result = .error error)
      (hthread : s.thread = .unwinding ∧ s.arcs = 1 ∨
        s.thread = .ended ∧ s.socket = false ∧ s.arcs = 0) (hidle : s.Untouched)

theorem phase_init (env : Start X) : Phase env (init : EventLoop X ρ) :=
  .early trivial rfl rfl rfl ⟨rfl, rfl, rfl, rfl⟩

section
variable {env : Start X} {s t : EventLoop X ρ}

theorem Untouched.same (h : s.Untouched) (husers : t.users = s.users) (hqueue : t.queue = s.queue)
    (hsent : t.sent = s.sent) (hcalls : t.calls = s.calls) : t.Untouched :=
  ⟨husers.trans h.users, hqueue.trans h.queue, hsent.trans h.sent, hcalls.trans h.calls⟩

theorem giveUp_phase {error : StartError} (hidle : s.Untouched) (hthread : s.thread = .unborn)
    (hresult : env.result = .error error) : Phase env (s.giveUp error) :=
  .refused rfl hresult hthread rfl rfl (hidle.same rfl rfl rfl rfl)

theorem stepCaller_early (hcaller : env.Asked s.arcs s.caller) (hthread : s.thread = .unborn)
    (hready : s.ready = none) (htx : s.readyTx = true) (hidle : s.Untouched)
    (hstep : s.stepCaller env = some t) : Phase env t := by
  unfold stepCaller at hstep
  cases hc : s.caller with
  | bind =>
    simp only [hc] at hstep
    split at hstep <;> cases hstep <;> rename_i hanswer
    · apply giveUp_phase hidle hthread
      simp only [Start.result, hanswer]
    · exact .early hanswer hthread hready htx (hidle.same rfl rfl rfl rfl)
  | setNonblocking =>
    have hbind : env.bind = .ok () := by simpa [hc, Start.Asked] using hcaller
    simp only [hc] at hstep
    split at hstep <;> cases hstep <;> rename_i hanswer
    · apply giveUp_phase hidle hthread
      simp only [Start.result, hbind, hanswer]
    · exact .early ⟨hbind, hanswer⟩ hthread hready htx (hidle.same rfl rfl rfl rfl)
  | localAddr =>
    obtain ⟨hbind, hnonblocking⟩ : env.bind = .ok () ∧ env.setNonblocking = .ok () := by
      simpa [hc, Start.Asked] using hcaller
    simp only [hc] at hstep
    split at hstep <;> cases hstep <;> rename_i hanswer
    · apply giveUp_phase hidle hthread
      simp only [Start.result, hbind, hnonblocking, hanswer]
    · have hspawns : env.Spawns _ := ⟨hbind, hnonblocking, hanswer⟩
      exact .early ⟨hspawns, rfl⟩ hthread hready htx (hidle.same rfl rfl rfl rfl)
  | spawnThread a =>
    obtain ⟨hspawns, harcs⟩ : env.Spawns a ∧ s.arcs = 1 := by
      simpa [hc, Start.Asked] using hcaller
    simp only [hc] at hstep
    split at hstep <;> cases hstep <;> rename_i hanswer
    · apply giveUp_phase hidle hthread
      simp only [Start.result, hspawns.bind, hspawns.setNonblocking, hspawns.localAddr, hanswer]
    · have hpair : s.arcs + 1 = 2 := by omega
      exact .starting rfl hspawns hanswer trivial hready htx hpair (hidle.same rfl rfl rfl rfl)
  | recv a => simp [hc, Start.Asked] at hcaller
  | returned r => simp [hc, Start.Asked] at hcaller

theorem stepCaller_waits {a : SocketAddr} (hcaller : s.caller = .recv a) (hready : s.ready = none)
    (htx : s.readyTx = true) : s.stepCaller env = none := by
  simp only [stepCaller, hcaller, hready, htx, if_true]

theorem stepThread_starting {a : SocketAddr} (hcaller : s.caller = .recv a)
    (hspawns : env.Spawns a) (hspawn : env.spawnThread = .ok ()) (hthread : env.Passed s.thread)
    (hready : s.ready = none) (htx : s.readyTx = true) (harcs : s.arcs = 2)
    (hidle : s.Untouched) (hstep : s.stepThread env = some t) : Phase env t := by
  unfold stepThread at hstep
  cases hp : s.thread with
  | buildRuntime =>
    simp only [hp] at hstep
    split at hstep <;> cases hstep <;> rename_i hanswer
    · exact .dying hcaller (hspawns.result_runtime hspawn hanswer) (Or.inr ⟨_, rfl, rfl⟩)
        (Or.inl ⟨rfl, htx, harcs⟩) (hidle.same rfl rfl rfl rfl)
    · exact .starting hcaller hspawns hspawn hanswer hready htx harcs (hidle.same rfl rfl rfl rfl)
  | fromStd =>
    have hruntime : env.buildRuntime = .ok () := by simpa [hp, Start.Passed] using hthread
    simp only [hp] at hstep
    split at hstep <;> cases hstep <;> rename_i hanswer
    · rename_i e
      have hbridge : env.bridge = .error e := by simp only [Start.bridge, hanswer]
      exact .dying hcaller (hspawns.result_bridge hspawn hruntime hbridge) (Or.inl ⟨hready, rfl⟩)
        (Or.inl ⟨rfl, htx, harcs⟩) (hidle.same rfl rfl rfl rfl)
    · exact .starting hcaller hspawns hspawn ⟨hruntime, hanswer⟩ hready htx harcs
        (hidle.same rfl rfl rfl rfl)
  | buildConfig =>
    obtain ⟨hruntime, hstd⟩ : env.buildRuntime = .ok () ∧ env.fromStd = .ok () := by
      simpa [hp, Start.Passed] using hthread
    simp only [hp] at hstep
    split at hstep <;> cases hstep <;> rename_i hanswer
    · rename_i e
      have hbridge : env.bridge = .error e := by simp only [Start.bridge, hstd, hanswer]
      exact .dying hcaller (hspawns.result_bridge hspawn hruntime hbridge) (Or.inl ⟨hready, rfl⟩)
        (Or.inl ⟨rfl, htx, harcs⟩) (hidle.same rfl rfl rfl rfl)
    · rename_i config
      have hbridge : env.bridge = .ok config := by simp only [Start.bridge, hstd, hanswer]
      have hthree : s.arcs + 1 = 3 := by omega
      refine .built hcaller rfl hready htx hthree (hspawns.result_ok hspawn hruntime hbridge)
        hanswer ?_ hidle.users hidle.queue hidle.sent
      simp only [hidle.calls, List.nil_append]
  | _ => simp [hp, Start.Passed] at hthread

theorem Built.more {a : SocketAddr} (h : s.Built env a) {calls : List (EndpointCall X ρ)}
    (hcalls : t.calls = s.calls ++ calls) : t.Built env a := by
  obtain ⟨config, hconfig, hhead⟩ := h.calls
  refine ⟨h.result, config, hconfig, ?_⟩
  rw [hcalls, List.head?_append, hhead, Option.some_or]

theorem step_start {e : LoopEvent X ρ} (husers : s.users = 0) (hthread : s.thread ≠ .select)
    (hstep : s.step env e = some t) :
    e = .caller ∧ s.stepCaller env = some t ∨ e = .thread ∧ s.stepThread env = some t := by
  cases e <;> simp only [step, husers, if_true, if_neg hthread] at hstep
  case caller => exact Or.inl ⟨rfl, hstep⟩
  case thread => exact Or.inr ⟨rfl, hstep⟩
  all_goals cases hstep

theorem step_loop {e : LoopEvent X ρ} (hthread : s.thread.InLoop) (harcs : s.users + 2 ≤ s.arcs)
    (he : e ≠ .caller) (hstep : s.step env e = some t) :
    t.thread.InLoop ∧ t.caller = s.caller ∧ t.ready = s.ready ∧
      t.arcs + s.users = s.arcs + t.users ∧ (s.users = 0 → t.users = 0) ∧
      ∃ calls, t.calls = s.calls ++ calls := by
  have hended : s.thread ≠ .ended := by
    rcases hthread with h | h <;> rw [h] <;> decide
  cases e with
  | caller => exact absurd rfl he
  | thread =>
    simp only [step, stepThread] at hstep
    rcases hthread with hp | hp <;> simp only [hp] at hstep <;> cases hstep
    exact ⟨Or.inl rfl, rfl, rfl, rfl, id, _, rfl⟩
  | packet result =>
    simp only [step] at hstep
    split at hstep
    · split at hstep <;> cases hstep <;> exact ⟨Or.inr rfl, rfl, rfl, rfl, id, _, rfl⟩
    · cases hstep
  | command =>
    simp only [step] at hstep
    split at hstep
    · split at hstep
      · cases hstep
        exact ⟨Or.inr rfl, rfl, rfl, rfl, id, _, rfl⟩
      · have hsome : s.arcs ≠ 0 := by omega
        rw [if_neg hsome] at hstep
        cases hstep
    · cases hstep
  | timeout =>
    simp only [step] at hstep
    split at hstep <;> cases hstep
    exact ⟨Or.inr rfl, rfl, rfl, rfl, id, _, rfl⟩
  | send cmd =>
    simp only [step, if_neg hended] at hstep
    split at hstep <;> cases hstep
    exact ⟨hthread, rfl, rfl, rfl, id, [], (List.append_nil _).symm⟩
  | cloneHandle =>
    simp only [step] at hstep
    split at hstep <;> cases hstep
    refine ⟨hthread, rfl, rfl, ?_, fun h => ?_, [], (List.append_nil _).symm⟩
    · simp only
      omega
    · contradiction
  | dropHandle =>
    simp only [step] at hstep
    split at hstep <;> cases hstep
    refine ⟨hthread, rfl, rfl, ?_, fun h => ?_, [], (List.append_nil _).symm⟩
    · simp only
      omega
    · contradiction

theorem phase_step {e : LoopEvent X ρ} (hs : Phase env s) (hstep : s.step env e = some t) :
    Phase env t := by
  cases hs with
  | early hcaller hthread hready htx hidle =>
    rcases step_start hidle.users (by rw [hthread]; decide) hstep with ⟨-, h⟩ | ⟨-, h⟩
    · exact stepCaller_early hcaller hthread hready htx hidle h
    · simp only [stepThread, hthread] at h
      cases h
  | refused hcaller hresult hthread hsocket harcs hidle =>
    rcases step_start hidle.users (by rw [hthread]; decide) hstep with ⟨-, h⟩ | ⟨-, h⟩
    · simp only [stepCaller, hcaller] at h
      cases h
    · simp only [stepThread, hthread] at h
      cases h
  | starting hcaller hspawns hspawn hthread hready htx harcs hidle =>
    have hselect : s.thread ≠ .select := by
      intro h
      rw [h] at hthread
      exact hthread
    rcases step_start hidle.users hselect hstep with ⟨-, h⟩ | ⟨-, h⟩
    · rw [stepCaller_waits hcaller hready htx] at h
      cases h
    · exact stepThread_starting hcaller hspawns hspawn hthread hready htx harcs hidle h
  | built hcaller hthread hready htx harcs hresult hconfig hcalls husers =>
    rcases step_start husers (by rw [hthread]; decide) hstep with ⟨-, h⟩ | ⟨-, h⟩
    · rw [stepCaller_waits hcaller hready htx] at h
      cases h
    · simp only [stepThread, hthread] at h
      cases h
      refine .ready hcaller (Or.inl rfl) rfl harcs husers ⟨hresult, _, hconfig, ?_⟩
      rw [hcalls, List.head?_cons]
  | ready hcaller hthread hready harcs husers hbuilt =>
    by_cases he : e = .caller
    · subst he
      simp only [step, stepCaller, hcaller, hready] at hstep
      cases hstep
      exact .running rfl hthread harcs (hbuilt.more (List.append_nil _).symm)
    · obtain ⟨hp, hc, hr, ha, hu, calls, hcalls⟩ := step_loop hthread (by omega) he hstep
      have hnone := hu husers
      exact .ready (hc.trans hcaller) hp (hr.trans hready) (by omega) hnone (hbuilt.more hcalls)
  | running hcaller hthread harcs hbuilt =>
    by_cases he : e = .caller
    · subst he
      simp only [step, stepCaller, hcaller] at hstep
      cases hstep
    · obtain ⟨hp, hc, -, ha, -, calls, hcalls⟩ := step_loop hthread (by omega) he hstep
      exact .running (hc.trans hcaller) hp (by omega) (hbuilt.more hcalls)
  | dying hcaller hresult hready hthread hidle =>
    have hselect : s.thread ≠ .select := by
      rcases hthread with ⟨h, -⟩ | ⟨h, -⟩ <;> rw [h] <;> decide
    rcases step_start hidle.users hselect hstep with ⟨-, h⟩ | ⟨-, h⟩
    · have hthread' : s.thread = .unwinding ∧ s.arcs - 1 = 1 ∨
          s.thread = .ended ∧ s.socket = false ∧ s.arcs - 1 = 0 := by
        apply hthread.imp
        · rintro ⟨hp, -, harcs⟩
          exact ⟨hp, by omega⟩
        · rintro ⟨hp, -, hsocket, harcs⟩
          exact ⟨hp, hsocket, by omega⟩
      rcases hready with ⟨hnone, rfl⟩ | ⟨e, hsome, rfl⟩
      · simp only [stepCaller, hcaller, hnone] at h
        split at h <;> cases h
        exact .failed rfl hresult hthread' (hidle.same rfl rfl rfl rfl)
      · simp only [stepCaller, hcaller, hsome] at h
        cases h
        exact .failed rfl hresult hthread' (hidle.same rfl rfl rfl rfl)
    · rcases hthread with ⟨hp, -, harcs⟩ | ⟨hp, -⟩ <;> simp only [stepThread, hp] at h <;> cases h
      exact .dying hcaller hresult hready (Or.inr ⟨rfl, rfl, rfl, by simp only [harcs]⟩)
        (hidle.same rfl rfl rfl rfl)
  | failed hcaller hresult hthread hidle =>
    have hselect : s.thread ≠ .select := by
      rcases hthread with ⟨h, -⟩ | ⟨h, -⟩ <;> rw [h] <;> decide
    rcases step_start hidle.users hselect hstep with ⟨-, h⟩ | ⟨-, h⟩
    · simp only [stepCaller, hcaller] at h
      cases h
    · rcases hthread with ⟨hp, harcs⟩ | ⟨hp, -⟩ <;> simp only [stepThread, hp] at h <;> cases h
      exact .failed hcaller hresult (Or.inr ⟨rfl, rfl, by simp only [harcs]⟩)
        (hidle.same rfl rfl rfl rfl)

theorem phase_reach (hs : Reach (step env) Any (init : EventLoop X ρ) s) : Phase env s :=
  hs.invariant (fun _ _ _ h _ hstep => phase_step h hstep) (phase_init env)

end

/-! ## The end of the start -/

/-- The statements that are left; a thread adds its own once it is spawned. -/
def work (s : EventLoop X ρ) : Nat := s.caller.work + s.thread.work

theorem own_works (env : Start X) :
    Works (step env) LoopEvent.Own (work : EventLoop X ρ → Nat) := by
  intro s e t he hstep
  cases e with
  | caller =>
    simp only [step, stepCaller] at hstep
    split at hstep <;> rename_i hc <;> try split at hstep
    all_goals
      try split at hstep
      all_goals
        cases hstep
        all_goals simp only [work, giveUp, hc, SpawnPoint.work, IoThread.work]
        all_goals omega
  | thread =>
    simp only [step, stepThread] at hstep
    split at hstep <;> rename_i hp <;> try split at hstep
    all_goals
      cases hstep
      all_goals simp only [work, hp, IoThread.work]
      all_goals omega
  | _ => exact he.elim

theorem stepCaller_asked {env : Start X} {s : EventLoop X ρ}
    (hcaller : env.Asked s.arcs s.caller) : s.stepCaller env ≠ none := by
  unfold stepCaller
  cases hc : s.caller <;> simp only [hc, Start.Asked] at hcaller ⊢ <;> split <;>
    exact Option.some_ne_none _

theorem stepThread_passed {env : Start X} {s : EventLoop X ρ} (hthread : env.Passed s.thread) :
    s.stepThread env ≠ none := by
  unfold stepThread
  cases hp : s.thread <;> simp only [hp, Start.Passed] at hthread ⊢ <;> split <;>
    exact Option.some_ne_none _

theorem quiet_returned {env : Start X} {s : EventLoop X ρ} (hs : Phase env s)
    (hquiet : Quiet (step env) LoopEvent.Own s) :
    s.caller = .returned env.result ∧
      match env.result with
      | .ok a => s.thread = .select ∧ s.Built env a
      | .error _ => s.socket = false ∧ s.arcs = 0 ∧ s.calls = [] ∧ ¬ s.thread.Alive := by
  have hcaller : s.stepCaller env = none := hquiet .caller trivial
  have hthread : s.stepThread env = none := hquiet .thread trivial
  cases hs with
  | early hasked => exact absurd hcaller (stepCaller_asked hasked)
  | refused hc hresult hp hsocket harcs hidle =>
    rw [hresult]
    exact ⟨hc, hsocket, harcs, hidle.calls, fun h => h.1 hp⟩
  | starting hc hspawns hspawn hpassed => exact absurd hthread (stepThread_passed hpassed)
  | built hc hp => simp [stepThread, hp] at hthread
  | ready hc hp hready => simp [stepCaller, hc, hready] at hcaller
  | running hc hp harcs hbuilt =>
    rw [hbuilt.result]
    refine ⟨hc, ?_, hbuilt⟩
    apply hp.resolve_right
    intro h
    simp [stepThread, h] at hthread
  | dying hc hresult hready hp hidle =>
    rcases hp with ⟨hp, -⟩ | ⟨hp, htx, -⟩
    · simp [stepThread, hp] at hthread
    · rcases hready with ⟨hnone, -⟩ | ⟨e, hsome, -⟩
      · simp [stepCaller, hc, hnone, htx] at hcaller
      · simp [stepCaller, hc, hsome] at hcaller
  | failed hc hresult hp hidle =>
    rw [hresult]
    rcases hp with ⟨hp, -⟩ | ⟨hp, hsocket, harcs⟩
    · simp [stepThread, hp] at hthread
    · exact ⟨hc, hsocket, harcs, hidle.calls, fun h => h.2 hp⟩

theorem Phase.returned {env : Start X} {s : EventLoop X ρ} (hs : Phase env s)
    {r : Except StartError SocketAddr} (hr : s.caller = .returned r) :
    r = env.result ∧ ∀ a, r = .ok a → s.thread.InLoop ∧ s.Built env a := by
  cases hs with
  | early hasked => simp [hr, Start.Asked] at hasked
  | refused hc hresult =>
    cases hr.symm.trans hc
    exact ⟨hresult.symm, fun a h => by cases h⟩
  | running hc hp harcs hbuilt =>
    cases hr.symm.trans hc
    refine ⟨hbuilt.result.symm, fun a h => ?_⟩
    cases h
    exact ⟨hp, hbuilt⟩
  | failed hc hresult =>
    cases hr.symm.trans hc
    exact ⟨hresult.symm, fun a h => by cases h⟩
  | starting hc => cases hr.symm.trans hc
  | built hc => cases hr.symm.trans hc
  | ready hc => cases hr.symm.trans hc
  | dying hc => cases hr.symm.trans hc

/-- `Bridge::spawn` returns what its steps would give in a row, and it is never left
waiting. With a handle the thread is in its loop; after an error the socket is closed, no
reference to the handle is left, and no endpoint was made. -/
theorem spawn_returns (env : Start X) (s : EventLoop X ρ)
    (hs : Reach (step env) Any (init : EventLoop X ρ) s) :
    (∀ r, s.caller = .returned r →
      r = env.result ∧ ∀ a, r = .ok a → s.thread.InLoop ∧ s.Built env a) ∧
    (∃ t, Reach (step env) (fun _ => LoopEvent.Own) s t ∧ Quiet (step env) LoopEvent.Own t) ∧
    ∀ es t, (∀ e ∈ es, LoopEvent.Own e) → run (step env) s es = some t →
      es.length ≤ s.work ∧
      (Quiet (step env) LoopEvent.Own t → t.caller = .returned env.result ∧
        match env.result with
        | .ok a => t.thread = .select ∧ t.Built env a
        | .error _ => t.socket = false ∧ t.arcs = 0 ∧ t.calls = [] ∧ ¬ t.thread.Alive) := by
  have hphase := phase_reach hs
  refine ⟨fun r hr => hphase.returned hr, (own_works env).reach_quiet s,
    fun es t hes hrun => ⟨?_, ?_⟩⟩
  · have hlength := (own_works env).length_le hes hrun
    omega
  · apply quiet_returned
    exact phase_reach (hs.trans (reach_any_of_run hrun))

/-- A server whose certificate the engine does not take. -/
def badCertificate : Start .units where
  api := { ConfigApi.accepting with newServerConfig := fun _ _ _ _ => .error "no such file" }
  display _ := ""
  endpointConfig := {}
  serverConfig := some
    { transport := { maxIdleTimeout := none }
      certFile := "cert.pem", keyFile := "key.pem", alpnProtocols := [] }
  defaultClientConfig := none
  bind := .ok ()
  setNonblocking := .ok ()
  localAddr := .ok ⟨1, 4433⟩
  spawnThread := .ok ()
  buildRuntime := .ok ()
  fromStd := .ok ()

/-- The caller does not learn about the certificate. -/
theorem spawn_returns_bad_certificate :
    ∃ t, Reach (step badCertificate) (fun _ => LoopEvent.Own) (init : EventLoop .units Nat) t ∧
      t.caller = .returned (.error (.other "bridge thread died during startup")) ∧
      t.socket = false ∧ t.arcs = 0 := by
  obtain ⟨-, ⟨t, ht, hquiet⟩, -⟩ :=
    spawn_returns badCertificate init (.refl (init : EventLoop .units Nat))
  have hreach : Reach (step badCertificate) Any init t := ht.any
  obtain ⟨-, -, hend⟩ := spawn_returns badCertificate t hreach
  obtain ⟨hcaller, hsocket, harcs, -⟩ := (hend [] t (by simp) rfl).2 hquiet
  exact ⟨t, ht, hcaller, hsocket, harcs⟩

end EventLoop

end TokioTquic
