import TokioTquic.Async.Work
import TokioTquic.Cancellation

/-!
# What the bridge thread owes

Whoever waits for a reply has its request in the queue. The bridge thread has only so
much to do: it ends what it began, and then nobody waits for a reply. A call therefore
needs nothing but the thread and its own polls to return or to fall asleep.
-/

namespace TokioTquic
open Async
set_option autoImplicit false

universe u v
variable {κ : Type u} {ρ : Type v}

/-! ## Work left -/

/-- `get` may add one more operation. -/
def SharedOp.work : SharedOp → Nat
  | .get _ => 2
  | _ => 1

def opsWork : List SharedOp → Nat
  | [] => 0
  | op :: ops => op.work + opsWork ops

theorem opsWork_append (ops more : List SharedOp) :
    opsWork (ops ++ more) = opsWork ops + opsWork more := by
  induction ops with
  | nil => simp [opsWork]
  | cons op ops ih =>
    simp only [List.cons_append, opsWork, ih]
    omega

theorem SharedOp.exec_work (cn : ConnNotify) (op : SharedOp) :
    opsWork (op.exec cn).2 < op.work := by
  cases op with
  | get h =>
    simp only [exec, work]
    split <;> simp [opsWork, work]
  | queueAccept dir streamId => cases dir <;> simp [exec, opsWork, work]
  | _ => simp [exec, opsWork, work]

def Bridge.work (b : Bridge κ ρ) : Nat := opsWork b.todo + b.queue.length

theorem Bridge.exec_work {b b' : Bridge κ ρ} (h : b.step .exec = some b') : b'.work < b.work := by
  obtain ⟨op, todo, htodo, rfl⟩ := step_exec h
  have hop := op.exec_work b.cn
  simp only [work, htodo, opsWork_append, opsWork]
  omega

theorem Bridge.process_work {T : Tquic κ} {b b' : Bridge κ ρ} {cmd : ConnCommand ρ}
    {reply : Option (ρ × Reply)} (h : b.process T = some (cmd, b', reply)) :
    b'.work < b.work := by
  obtain ⟨htodo, hqueue, _, htodo', _⟩ := process_some h
  simp only [work, htodo, htodo', hqueue, List.length_cons]
  omega

def IoEvent.Own : IoEvent κ → Prop
  | .process => True
  | .bridge .exec => True
  | _ => False

/-! ## Requests of waiting futures -/

def Half.Answered : Half → Reply → Prop
  | .recv _, .read _ => True
  | .send _, .written _ => True
  | _, _ => False

theorem request_answered {T : Tquic κ} {conn conn' : Option κ} {h : Half} {buf : Bytes}
    {a a' : ρ} {r : Reply}
    (hproc : processConnCommand T conn (h.request buf a) = (conn', some (a', r))) :
    h.Answered r := by
  cases h with
  | recv streamId =>
    simp only [Half.request, processConnCommand, Prod.mk.injEq, Option.some.injEq] at hproc
    obtain ⟨_, _, rfl⟩ := hproc
    trivial
  | send streamId =>
    simp only [Half.request, processConnCommand, Prod.mk.injEq, Option.some.injEq] at hproc
    obtain ⟨_, _, rfl⟩ := hproc
    trivial

namespace StreamIo

theorem own_works (T : Tquic κ) :
    Works (step T) IoEvent.Own fun s : StreamIo κ => s.bridge.work := by
  intro s e t he hstep
  cases e with
  | process =>
    obtain ⟨cmd, b, reply, hp, hb, _⟩ := process_futures hstep
    simp only [hb]
    exact Bridge.process_work hp
  | bridge e =>
    obtain ⟨b, hb, rfl⟩ := step_bridge hstep
    cases e with
    | exec => exact Bridge.exec_work hb
    | engine _ | callback _ => exact absurd he id
  | call _ _ | poll _ | drop _ => exact absurd he id

/-- Whoever waits for a reply will get one, and whoever has one can use it. -/
structure Served (s : StreamIo κ) : Prop where
  waiting : ∀ h f, s.futures h = some f → f.point = .reply none →
    h.request f.buf (h, f.serial) ∈ s.bridge.queue
  answered : ∀ h f r, s.futures h = some f → f.point = .reply (some r) → h.Answered r

theorem served_init (connId : Nat) (conn : κ) (remoteAddr : SocketAddr) (isServer : Bool) :
    (init connId conn remoteAddr isServer).Served :=
  ⟨by simp [init], by simp [init]⟩

theorem deliver_waits {s : StreamIo κ} {x : Option ((Half × Nat) × Reply)} {h : Half}
    {f : IoFuture} (hf : (s.deliver x).futures h = some f) (hp : f.point = .reply none) :
    s.futures h = some f ∧ ∀ r, x ≠ some ((h, f.serial), r) := by
  have hsame : s.futures h = some f := by
    rcases deliver_futures s x h with hsame | ⟨g, r, _, _, _, hg⟩
    · exact hsame ▸ hf
    · obtain rfl := Option.some.inj (hg.symm.trans hf)
      exact absurd hp (by simp)
  refine ⟨hsame, fun r hx => ?_⟩
  rcases f with ⟨serial, buf, point⟩
  obtain rfl : point = .reply none := hp
  subst hx
  simp [deliver, hsame, goto] at hf

theorem served_process {T : Tquic κ} {s s' : StreamIo κ} (hs : s.Served) (hq : s.Queued)
    (hstep : s.step T .process = some s') : s'.Served := by
  obtain ⟨cmd, b, reply, hp, rfl⟩ := step_process hstep
  obtain ⟨_, hqueue, _, _, hproc⟩ := Bridge.process_some hp
  obtain ⟨g, buf, n, rfl, _, _⟩ := hq.request cmd (by simp [hqueue])
  obtain ⟨conn', r, hr⟩ := request_replies T s.bridge.conn g buf (g, n)
  obtain ⟨_, rfl⟩ : _ ∧ some ((g, n), r) = reply := by simpa [hr] using hproc
  have hframe := recordMoved_frame { s with bridge := b } T s.bridge.conn (g.request buf (g, n))
  constructor
  · intro h f hf hpoint
    obtain ⟨hbefore, hother⟩ := deliver_waits hf hpoint
    rw [hframe.2] at hbefore
    rw [deliver_bridge, hframe.1]
    have hmem := hs.waiting h f hbefore hpoint
    rw [hqueue] at hmem
    rcases List.mem_cons.mp hmem with heq | hmem
    · -- the processed command is not its own: it would have been answered
      have hrespond := congrArg ConnCommand.respond heq
      rw [Half.request_respond, Half.request_respond] at hrespond
      exact absurd (congrArg some (congrArg (·, r) (Option.some.inj hrespond.symm))) (hother r)
    · exact hmem
  · intro h f r' hf hpoint
    rcases deliver_futures _ (some ((g, n), r)) h with hsame | ⟨f', r'', _, _, hx, hf'⟩
    · rw [hsame, hframe.2] at hf
      exact hs.answered h f r' hf hpoint
    · obtain rfl := Option.some.inj (hf'.symm.trans hf)
      obtain rfl : r'' = r' := by simpa using hpoint
      obtain ⟨⟨rfl, _⟩, rfl⟩ : (g = h ∧ n = f'.serial) ∧ r = r'' := by simpa using hx
      exact request_answered hr

theorem poll_point {s s' : StreamIo κ} {h : Half} {f : IoFuture} (hs : s.poll h f = some s') :
    s'.futures h = none ∨ ∃ p, s'.futures h = some { f with point := p } ∧
      (∀ r, p ≠ .reply (some r)) ∧
      (p = .reply none → s'.bridge.queue = s.bridge.queue ++ [h.request f.buf (h, f.serial)]) := by
  cases poll_cases hs with
  | ended _ _ | returned _ _ | lost _ _ => exact Or.inl (complete_self _ h _)
  | sent _ => exact Or.inr ⟨_, goto_self _ h f _, by simp, fun _ => rfl⟩
  | resumed _ | unserved _ _ | entered _ _ | registered _ =>
    exact Or.inr ⟨_, goto_self _ h f _, by simp, by simp⟩
  | waited _ _ =>
    refine Or.inr ⟨_, goto_self _ h f _, ?_, ?_⟩
    · intro r
      split <;> simp
    · split <;> simp

theorem served_poll {s s' : StreamIo κ} {g : Half} {f : IoFuture} (hs : s.Served)
    (hstep : s.poll g f = some s') : s'.Served := by
  have hqueue : s.bridge.queue ⊆ s'.bridge.queue := by
    obtain ⟨_, _, ⟨hqueue, _⟩ | ⟨_, hqueue, _⟩⟩ := poll_future hstep
    · rw [hqueue]
      exact List.Subset.refl _
    · rw [hqueue]
      exact List.subset_append_left _ _
  constructor
  · intro h f' hf' hpoint
    by_cases hh : h = g
    · subst hh
      rcases poll_point hstep with hnone | ⟨p, hsome, _, hsent⟩
      · simp [hnone] at hf'
      · obtain rfl := Option.some.inj (hsome.symm.trans hf')
        rw [hsent hpoint]
        simp
    · rw [(poll_other hh hstep).1] at hf'
      exact hqueue (hs.waiting h f' hf' hpoint)
  · intro h f' r hf' hpoint
    by_cases hh : h = g
    · subst hh
      rcases poll_point hstep with hnone | ⟨p, hsome, hp, _⟩
      · simp [hnone] at hf'
      · obtain rfl := Option.some.inj (hsome.symm.trans hf')
        exact absurd hpoint (hp r)
    · rw [(poll_other hh hstep).1] at hf'
      exact hs.answered h f' r hf' hpoint

theorem served_step {T : Tquic κ} {s s' : StreamIo κ} {e : IoEvent κ} (hs : s.Served)
    (hq : s.Queued) (hstep : s.step T e = some s') : s'.Served := by
  cases e with
  | process => exact served_process hs hq hstep
  | bridge e =>
    obtain ⟨b, hb, rfl⟩ := step_bridge hstep
    refine ⟨fun h f hf hpoint => ?_, hs.answered⟩
    simp only [(Bridge.step_cn hb).1]
    exact hs.waiting h f hf hpoint
  | call g buf =>
    obtain ⟨_, rfl⟩ := step_call hstep
    have hold : ∀ h f, Function.update s.futures g (some ⟨s.next, buf, .begin⟩) h = some f →
        s.futures h = some f ∨ f.point = .begin := by
      intro h f hf
      by_cases hh : h = g
      · subst hh
        rw [Function.update_self] at hf
        obtain rfl := Option.some.inj hf
        exact Or.inr rfl
      · exact Or.inl (by simpa [hh] using hf)
    constructor
    · intro h f hf hpoint
      rcases hold h f hf with hf | hbegin
      · exact hs.waiting h f hf hpoint
      · simp [hbegin] at hpoint
    · intro h f r hf hpoint
      rcases hold h f hf with hf | hbegin
      · exact hs.answered h f r hf hpoint
      · simp [hbegin] at hpoint
  | poll g =>
    obtain ⟨f, _, hpoll⟩ := step_poll hstep
    exact served_poll hs hpoll
  | drop g =>
    obtain ⟨f, _, hdrop⟩ := step_drop hstep
    obtain ⟨_, hqueue, hgone⟩ := drop_future hdrop
    have hold : ∀ h f, s'.futures h = some f → s.futures h = some f := by
      intro h f hf
      by_cases hh : h = g
      · subst hh
        simp [hgone] at hf
      · rwa [(drop_other hh hdrop).1] at hf
    constructor
    · intro h f hf hpoint
      rw [hqueue]
      exact hs.waiting h f (hold h f hf) hpoint
    · exact fun h f r hf => hs.answered h f r (hold h f hf)

/-- What the bridge thread relies on in every reachable state. -/
structure Sound (s : StreamIo κ) : Prop where
  seated : s.Seated
  queued : s.Queued
  served : s.Served

theorem sound_init (connId : Nat) (conn : κ) (remoteAddr : SocketAddr) (isServer : Bool) :
    (init connId conn remoteAddr isServer).Sound :=
  ⟨seated_init connId conn remoteAddr isServer, queued_init .., served_init ..⟩

theorem sound_step {T : Tquic κ} {s s' : StreamIo κ} {e : IoEvent κ} (hs : s.Sound)
    (hstep : s.step T e = some s') : s'.Sound :=
  ⟨seated_step hs.seated hstep, queued_step hs.queued hstep, served_step hs.served hs.queued hstep⟩

theorem sound_reach {T : Tquic κ} {guard : StreamIo κ → IoEvent κ → Prop} {s t : StreamIo κ}
    (h : Reach (step T) guard s t) (hs : s.Sound) : t.Sound :=
  h.invariant (fun _ _ _ hI _ hstep => sound_step hI hstep) hs

/-! ## The thread by itself -/

theorem quiet_idle {T : Tquic κ} {s : StreamIo κ} (hs : Quiet (step T) IoEvent.Own s) :
    s.bridge.todo = [] ∧ s.bridge.queue = [] := by
  have hexec := hs (.bridge .exec) trivial
  have hprocess := hs .process trivial
  cases htodo : s.bridge.todo with
  | cons op ops => simp [step, Bridge.step, htodo] at hexec
  | nil =>
    refine ⟨rfl, ?_⟩
    cases hqueue : s.bridge.queue with
    | nil => rfl
    | cons cmd cmds => simp [step, Bridge.process, htodo, hqueue] at hprocess

/-- The futures of `s'` are those of `s`, some with a reply. -/
def Replied (s s' : StreamIo κ) : Prop :=
  ∀ h, s'.futures h = s.futures h ∨ ∃ f r, s.futures h = some f ∧ f.point = .reply none ∧
    s'.futures h = some { f with point := .reply (some r) }

theorem own_replied {T : Tquic κ} {s t : StreamIo κ}
    (h : Reach (step T) (fun _ => IoEvent.Own) s t) : s.Replied t := by
  induction h with
  | refl => exact fun _ => Or.inl rfl
  | @tail t u e _ hown hstep ih =>
    have hlast : t.Replied u := by
      cases e with
      | process =>
        obtain ⟨_, _, _, _, _, _, hfut⟩ := process_futures hstep
        intro h
        rcases hfut h with hsame | ⟨f, r, hf, hp, _, hf'⟩
        · exact Or.inl hsame
        · exact Or.inr ⟨f, r, hf, hp, hf'⟩
      | bridge e =>
        obtain ⟨b, _, rfl⟩ := step_bridge hstep
        exact fun _ => Or.inl rfl
      | call _ _ | poll _ | drop _ => exact absurd hown id
    intro h
    rcases hlast h with hsame | ⟨f, r, hf, hp, hf'⟩
    · rw [hsame]
      exact ih h
    · rcases ih h with hsame | ⟨g, r', _, _, hg⟩
      · exact Or.inr ⟨f, r, hsame ▸ hf, hp, hf'⟩
      · obtain rfl := Option.some.inj (hg.symm.trans hf)
        exact absurd hp (by simp)

/-- From any reachable state the thread by itself comes to an end within the work it has,
and every future that waited for a reply then holds one. The others stay where they are. -/
theorem bridge_answers (T : Tquic κ) (connId : Nat) (conn : κ) (remoteAddr : SocketAddr)
    (isServer : Bool) (s : StreamIo κ)
    (hs : Reach (step T) Any (init connId conn remoteAddr isServer) s) :
    (∃ t, Reach (step T) (fun _ => IoEvent.Own) s t ∧ Quiet (step T) IoEvent.Own t) ∧
    ∀ es t, (∀ e ∈ es, IoEvent.Own e) → run (step T) s es = some t →
      es.length ≤ s.bridge.work ∧
      (Quiet (step T) IoEvent.Own t → t.bridge.queue = [] ∧ t.bridge.todo = [] ∧
        ∀ h f, s.futures h = some f →
          (f.point = .reply none ∧
            ∃ r, t.futures h = some { f with point := .reply (some r) } ∧ h.Answered r) ∨
          (f.point ≠ .reply none ∧ t.futures h = some f)) := by
  have hsound := sound_reach hs (sound_init connId conn remoteAddr isServer)
  refine ⟨(own_works T).reach_quiet s, fun es t hes hrun => ⟨?_, fun hquiet => ?_⟩⟩
  · have hlength := (own_works T).length_le hes hrun
    omega
  · obtain ⟨htodo, hqueue⟩ := quiet_idle hquiet
    have hreach := reach_of_run (fun e he _ => hes e he) hrun
    have ht := sound_reach hreach hsound
    refine ⟨hqueue, htodo, fun h f hf => ?_⟩
    by_cases hp : f.point = .reply none
    · refine Or.inl ⟨hp, ?_⟩
      rcases own_replied hreach h with hsame | ⟨g, r, hg, _, hg'⟩
      · -- nobody can be left waiting: the queue is empty
        have hmem := ht.served.waiting h f (hsame.trans hf) hp
        simp [hqueue] at hmem
      · obtain rfl := Option.some.inj (hg.symm.trans hf)
        exact ⟨r, hg', ht.served.answered h _ r hg' rfl⟩
    · refine Or.inr ⟨hp, ?_⟩
      rcases own_replied hreach h with hsame | ⟨g, r, hg, hwait, _⟩
      · rw [hsame, hf]
      · obtain rfl := Option.some.inj (hg.symm.trans hf)
        exact absurd hwait hp

/-- A read and a write wait: the thread has two things to do. -/
theorem bridge_answers_two :
    ∃ s, Reach (step Tquic.scripted) Any
        (init 0 { reads := [.ok ([1], false)], writes := [.ok 1] } .unspecified false) s ∧
      s.bridge.queue.length = 2 ∧
      ∀ es t, (∀ e ∈ es, IoEvent.Own e) → run (step Tquic.scripted) s es = some t →
        es.length ≤ 2 := by
  have hrun : run (step Tquic.scripted)
      (init 0 { reads := [.ok ([1], false)], writes := [.ok 1] } .unspecified false)
      [.call (.recv 0) [0], .poll (.recv 0), .poll (.recv 0),
        .call (.send 0) [7], .poll (.send 0), .poll (.send 0)] = some _ := rfl
  have hs := reach_any_of_run hrun
  refine ⟨_, hs, rfl, fun es t hes hrun => ?_⟩
  exact ((bridge_answers Tquic.scripted 0 _ .unspecified false _ hs).2 es t hes hrun).1

/-! ## A call by itself -/

/-- The call of `h` is over, or it sleeps and nothing is there to wake it. -/
def Rests (s : StreamIo κ) (h : Half) : Prop :=
  ∀ f, s.futures h = some f →
    f.point = .parked ∧ ∃ m, s.bridge.cn.notify h = some m ∧ m.Asleep f.serial

/-- The thread and the polls of this one call bring it to rest. -/
def Leads (T : Tquic κ) (s : StreamIo κ) (h : Half) : Prop :=
  ∃ t, Reach (step T) (fun _ e => IoEvent.Own e ∨ e = .poll h) s t ∧ t.Rests h

theorem Leads.event {T : Tquic κ} {s s' : StreamIo κ} {h : Half} {e : IoEvent κ}
    (he : IoEvent.Own e ∨ e = .poll h) (hstep : s.step T e = some s') (hs : s'.Leads T h) :
    s.Leads T h := by
  obtain ⟨t, ht, hrests⟩ := hs
  have hfirst : Reach (step T) (fun _ e => IoEvent.Own e ∨ e = .poll h) s s' :=
    .single he hstep
  exact ⟨t, hfirst.trans ht, hrests⟩

theorem Leads.poll {T : Tquic κ} {s s' : StreamIo κ} {h : Half}
    (hstep : s.step T (.poll h) = some s') (hs : s'.Leads T h) : s.Leads T h :=
  Leads.event (Or.inr rfl) hstep hs

theorem Leads.own {T : Tquic κ} {s s' : StreamIo κ} {h : Half}
    (hown : Reach (step T) (fun _ => IoEvent.Own) s s') (hs : s'.Leads T h) : s.Leads T h := by
  induction hown with
  | refl => exact hs
  | tail _ he hstep ih => exact ih (Leads.event (Or.inl he) hstep hs)

theorem Rests.same {s t : StreamIo κ} {h : Half} (hs : s.Rests h)
    (hfut : t.futures h = s.futures h) (hnotify : t.bridge.cn.notify h = s.bridge.cn.notify h) :
    t.Rests h := by
  intro f hf
  rw [hnotify]
  exact hs f (hfut ▸ hf)

theorem rests_complete (s : StreamIo κ) (h : Half) (c : Completion) : (s.complete h c).Rests h := by
  intro f hf
  rw [complete_self] at hf
  cases hf

theorem own_idle {T : Tquic κ} {s t : StreamIo κ} (h : Reach (step T) (fun _ => IoEvent.Own) s t)
    (hs : s.bridge.todo = []) : t.bridge.todo = [] ∧ t.bridge.cn = s.bridge.cn := by
  induction h with
  | refl => exact ⟨hs, rfl⟩
  | @tail t u e _ hown hstep ih =>
    cases e with
    | process =>
      obtain ⟨cmd, b, reply, hp, rfl, _⟩ := process_futures hstep
      obtain ⟨_, _, hcn, htodo, _⟩ := Bridge.process_some hp
      exact ⟨htodo, hcn.trans ih.2⟩
    | bridge e =>
      obtain ⟨b, hb, rfl⟩ := step_bridge hstep
      cases e with
      | exec => simp [Bridge.step, ih.1] at hb
      | engine _ | callback _ => exact absurd hown id
    | call _ _ | poll _ | drop _ => exact absurd hown id

/-- The call of `h` finds a permit only if `b` allows for one. -/
def Permits (s : StreamIo κ) (h : Half) (b : Bool) : Prop :=
  ∀ m, s.bridge.cn.notify h = some m → m.permit = true → b = true

theorem leads_send {T : Tquic κ} {h : Half} {b : Bool}
    (hreply : ∀ (s : StreamIo κ) f r, s.Sound → s.bridge.todo = [] → s.Permits h b →
      s.futures h = some f → f.point = .reply (some r) → s.Leads T h)
    {s : StreamIo κ} {f : IoFuture} (hs : s.Sound) (htodo : s.bridge.todo = [])
    (hb : s.Permits h b) (hf : s.futures h = some f)
    (hp : f.point = .send ∨ f.point = .reply none) : s.Leads T h := by
  have hwait : ∀ (s : StreamIo κ) f, s.Sound → s.bridge.todo = [] → s.Permits h b →
      s.futures h = some f → f.point = .reply none → s.Leads T h := by
    intro s f hs htodo hb hf hp
    obtain ⟨t, ht, hquiet⟩ := (own_works T).reach_quiet s
    have hidle := own_idle ht htodo
    have htsound := sound_reach ht hs
    rcases own_replied ht h with hsame | ⟨g, r, _, _, hg⟩
    · have hmem := htsound.served.waiting h f (hsame.trans hf) hp
      simp [(quiet_idle hquiet).2] at hmem
    · apply Leads.own ht
      apply hreply t _ r htsound hidle.1 _ hg rfl
      rwa [Permits, hidle.2]
  rcases hp with hp | hp
  · have hstep : s.step T (.poll h) =
        some ({ s with bridge := s.bridge.sendCmd (h.request f.buf (h, f.serial)) }.goto h f
          (.reply none)) := by
      simp [step, hf, StreamIo.poll, hp]
    apply Leads.poll hstep
    exact hwait _ _ (sound_step hs hstep) htodo hb (goto_self _ h f _) rfl
  · exact hwait s f hs htodo hb hf hp

theorem leads_entry {T : Tquic κ} {h : Half} {b : Bool}
    (hnotified : ∀ (s : StreamIo κ) f, s.Sound → s.bridge.todo = [] → s.Permits h b →
      s.futures h = some f → f.point = .notified → s.Leads T h)
    {s : StreamIo κ} {f : IoFuture} (hs : s.Sound) (htodo : s.bridge.todo = [])
    (hb : s.Permits h b) (hf : s.futures h = some f)
    (hp : f.point = .check ∨ f.point = .entry) : s.Leads T h := by
  have hentry : ∀ (s : StreamIo κ) f, s.Sound → s.bridge.todo = [] → s.Permits h b →
      s.futures h = some f → f.point = .entry → s.Leads T h := by
    intro s f hs htodo hb hf hp
    have hstep : s.step T (.poll h) =
        some ((s.setCn (s.bridge.cn.getOrCreate h)).goto h f .notified) := by
      simp [step, hf, StreamIo.poll, hp]
    apply Leads.poll hstep
    apply hnotified _ _ (sound_step hs hstep) htodo _ (goto_self _ h f _) rfl
    intro m hm hpermit
    have hm' : some ((s.bridge.cn.notify h).getD .new) = some m := by
      rw [← ConnNotify.getOrCreate_notify]
      exact hm
    cases hn : s.bridge.cn.notify h with
    | none =>
      -- a fresh entry holds no permit
      rw [hn] at hm'
      obtain rfl := Option.some.inj hm'
      cases hpermit
    | some n =>
      rw [hn] at hm'
      obtain rfl : n = m := Option.some.inj hm'
      exact hb n hn hpermit
  rcases hp with hp | hp
  · cases hclosed : s.bridge.cn.closed with
    | some err =>
      have hstep : s.step T (.poll h) = some (s.complete h (h.connectionLost f.buf err)) := by
        simp [step, hf, StreamIo.poll, hp, hclosed]
      exact Leads.poll hstep ⟨_, .refl _, rests_complete s h _⟩
    | none =>
      have hstep : s.step T (.poll h) = some (s.goto h f .entry) := by
        simp [step, hf, StreamIo.poll, hp, hclosed]
      apply Leads.poll hstep
      exact hentry _ _ (sound_step hs hstep) htodo hb (goto_self _ h f _) rfl
  · exact hentry s f hs htodo hb hf hp

theorem onReply_answered {s : StreamIo κ} {h : Half} {r : Reply} (hr : h.Answered r) (buf : Bytes) :
    ∃ s' pass, s.onReply h buf r = some (s', pass) := by
  cases h <;> cases r <;> first | exact absurd hr id | exact ⟨_, _, rfl⟩

theorem leads_of_notified {T : Tquic κ} {h : Half} {b : Bool}
    (hnotified : ∀ (s : StreamIo κ) f, s.Sound → s.bridge.todo = [] → s.Permits h b →
      s.futures h = some f → f.point = .notified → s.Leads T h)
    {s : StreamIo κ} {f : IoFuture} (hs : s.Sound) (htodo : s.bridge.todo = [])
    (hb : s.Permits h b) (hf : s.futures h = some f) : s.Leads T h := by
  have hreply : ∀ (s : StreamIo κ) f r, s.Sound → s.bridge.todo = [] → s.Permits h b →
      s.futures h = some f → f.point = .reply (some r) → s.Leads T h := by
    intro s f r hs htodo hb hf hp
    obtain ⟨s', pass, hr⟩ := onReply_answered (s := s) (hs.served.answered h f r hf hp) f.buf
    obtain ⟨recv, rfl⟩ := onReply_frame hr
    cases pass with
    | ret c =>
      have hstep : s.step T (.poll h) = some ({ s with recv := recv }.complete h c) := by
        simp [step, hf, StreamIo.poll, hp, hr]
      exact Leads.poll hstep ⟨_, .refl _, rests_complete _ h c⟩
    | wait =>
      have hstep : s.step T (.poll h) = some ({ s with recv := recv }.goto h f .check) := by
        simp [step, hf, StreamIo.poll, hp, hr]
      apply Leads.poll hstep
      exact leads_entry hnotified (sound_step hs hstep) htodo hb (goto_self _ h f _) (Or.inl rfl)
  have hsend : ∀ (s : StreamIo κ) f, s.Sound → s.bridge.todo = [] → s.Permits h b →
      s.futures h = some f → f.point = .send ∨ f.point = .reply none → s.Leads T h :=
    fun s f hs htodo hb hf hp => leads_send hreply hs htodo hb hf hp
  have hrecheck : ∀ (s : StreamIo κ) f, s.Sound → s.bridge.todo = [] → s.Permits h b →
      s.futures h = some f → f.point = .recheck → s.Leads T h := by
    intro s f hs htodo hb hf hp
    cases hclosed : s.bridge.cn.closed with
    | some err =>
      have hstep : s.step T (.poll h) = some (s.complete h (h.connectionLost f.buf err)) := by
        simp [step, hf, StreamIo.poll, hp, hclosed]
      exact Leads.poll hstep ⟨_, .refl _, rests_complete s h _⟩
    | none =>
      have hstep : s.step T (.poll h) = some (s.goto h f .send) := by
        simp [step, hf, StreamIo.poll, hp, hclosed]
      apply Leads.poll hstep
      exact hsend _ _ (sound_step hs hstep) htodo hb (goto_self _ h f _) (Or.inl rfl)
  cases hp : f.point with
  | begin =>
    cases hc : s.alreadyClosed h f.buf with
    | some c =>
      have hstep : s.step T (.poll h) = some (s.complete h c) := by
        simp [step, hf, StreamIo.poll, hp, hc]
      exact Leads.poll hstep ⟨_, .refl _, rests_complete s h c⟩
    | none =>
      have hstep : s.step T (.poll h) = some (s.goto h f .send) := by
        simp [step, hf, StreamIo.poll, hp, hc]
      apply Leads.poll hstep
      exact hsend _ _ (sound_step hs hstep) htodo hb (goto_self _ h f _) (Or.inl rfl)
  | send => exact hsend s f hs htodo hb hf (Or.inl hp)
  | reply msg =>
    cases msg with
    | none => exact hsend s f hs htodo hb hf (Or.inr hp)
    | some r => exact hreply s f r hs htodo hb hf hp
  | check => exact leads_entry hnotified hs htodo hb hf (Or.inl hp)
  | entry => exact leads_entry hnotified hs htodo hb hf (Or.inr hp)
  | notified => exact hnotified s f hs htodo hb hf hp
  | parked =>
    have hseat := hs.seated h
    rw [hf, seat_parked hp] at hseat
    obtain ⟨m, hm, hasleep | hawake⟩ := hseat
    · refine ⟨s, .refl s, fun g hg => ?_⟩
      obtain rfl := Option.some.inj (hf.symm.trans hg)
      exact ⟨hp, m, hm, hasleep⟩
    · -- it was notified: its next poll takes that and looks again
      have hstep : s.step T (.poll h) = some ((s.setCn (s.bridge.cn.setNotify
          (m.poll f.serial).2 h)).goto h f .recheck) := by
        simp [step, hf, StreamIo.poll, hp, Option.mem_def.mp hm, hawake.poll.1]
      apply Leads.poll hstep
      apply hrecheck _ _ (sound_step hs hstep) htodo _ (goto_self _ h f _) rfl
      intro m' hm' hpermit
      rw [goto_bridge, setCn_cn, ConnNotify.setNotify_notify] at hm'
      obtain rfl := Option.some.inj hm'
      apply hb m hm
      rwa [Notify.poll, if_pos (by simp [hawake.2])] at hpermit
  | recheck => exact hrecheck s f hs htodo hb hf hp

theorem step_notified {T : Tquic κ} {s : StreamIo κ} {h : Half} {f : IoFuture} {m : Notify Nat}
    (hf : s.futures h = some f) (hp : f.point = .notified) (hm : s.bridge.cn.notify h = some m) :
    s.step T (.poll h) = some ((s.setCn (s.bridge.cn.setNotify (m.poll f.serial).2 h)).goto h f
      (if (m.poll f.serial).1 then .recheck else .parked)) := by
  simp [step, hf, StreamIo.poll, hp, hm]

/-- A stored permit sends the call round once more, and then there is none. -/
theorem leads_notified {T : Tquic κ} {s : StreamIo κ} {h : Half} {f : IoFuture} (hs : s.Sound)
    (htodo : s.bridge.todo = []) (hf : s.futures h = some f) (hp : f.point = .notified) :
    s.Leads T h := by
  have hparks : ∀ (s : StreamIo κ) f, s.Sound → s.bridge.todo = [] → s.Permits h false →
      s.futures h = some f → f.point = .notified → s.Leads T h := by
    intro s f hs _ hb hf hp
    have hseat := hs.seated h
    rw [hf, seat_notified hp] at hseat
    obtain ⟨m, hm, hidle⟩ := hseat
    have hpermit : m.permit = false := by
      cases hpermit : m.permit with
      | false => rfl
      | true => exact absurd (hb m hm hpermit) (by simp)
    have hstep := step_notified (T := T) hf hp hm
    obtain ⟨hpending, hasleep⟩ := hidle.poll_asleep hpermit f.serial
    rw [hpending] at hstep
    apply Leads.poll hstep
    refine ⟨_, .refl _, fun g hg => ?_⟩
    obtain rfl := Option.some.inj ((goto_self _ h f _).symm.trans hg)
    refine ⟨rfl, _, ?_, hasleep⟩
    rw [goto_bridge, setCn_cn, ConnNotify.setNotify_notify]
  have hseat := hs.seated h
  rw [hf, seat_notified hp] at hseat
  obtain ⟨m, hm, hidle⟩ := hseat
  cases hpermit : m.permit with
  | false =>
    apply hparks s f hs htodo _ hf hp
    intro m' hm' hpermit'
    obtain rfl := Option.some.inj (hm.symm.trans hm')
    simp [hpermit] at hpermit'
  | true =>
    have hstep := step_notified (T := T) hf hp hm
    have hdown : false = true → m.waiters = [] := fun h => absurd h Bool.false_ne_true
    have hpoll : m.poll f.serial = (true, ⟨false, m.waiters, m.notified, hdown⟩) := by
      simp [Notify.poll, hidle.1, hidle.2, hpermit]
    rw [hpoll] at hstep
    apply Leads.poll hstep
    apply leads_of_notified hparks (sound_step hs hstep) htodo _ (goto_self _ h f _)
    intro m' hm' hpermit'
    have heq : m'.permit = false := by
      have hset : (s.bridge.cn.setNotify ⟨false, m.waiters, m.notified, hdown⟩ h).notify h =
          some m' := hm'
      rw [ConnNotify.setNotify_notify] at hset
      obtain rfl := Option.some.inj hset
      rfl
    simp [heq] at hpermit'

theorem leads_idle {T : Tquic κ} {s : StreamIo κ} (hs : s.Sound) (htodo : s.bridge.todo = [])
    (h : Half) : s.Leads T h := by
  cases hf : s.futures h with
  | none =>
    refine ⟨s, .refl s, fun f hsome => ?_⟩
    rw [hf] at hsome
    cases hsome
  | some f =>
    apply leads_of_notified (b := true) _ hs htodo _ hf
    · exact fun s f hs htodo _ hf hp => leads_notified hs htodo hf hp
    · exact fun _ _ _ => rfl

/-! ## All calls -/

theorem rests_own {T : Tquic κ} {s t : StreamIo κ}
    (h : Reach (step T) (fun _ => IoEvent.Own) s t) (htodo : s.bridge.todo = []) {g : Half}
    (hg : s.Rests g) : t.Rests g := by
  rcases own_replied h g with hsame | ⟨f, r, hf, hp, _⟩
  · exact hg.same hsame (by rw [(own_idle h htodo).2])
  · obtain ⟨hparked, -⟩ := hg f hf
    rw [hp] at hparked
    cases hparked

theorem rests_step {T : Tquic κ} {s t : StreamIo κ} {h : Half} {e : IoEvent κ}
    (he : IoEvent.Own e ∨ e = .poll h) (htodo : s.bridge.todo = []) (hstep : s.step T e = some t) :
    t.bridge.todo = [] ∧ ∀ g, (e = .poll h → g ≠ h) → s.Rests g → t.Rests g := by
  rcases he with hown | rfl
  · have hown' : Reach (step T) (fun _ => IoEvent.Own) s t := .single hown hstep
    exact ⟨(own_idle hown' htodo).1, fun g _ hg => rests_own hown' htodo hg⟩
  · obtain ⟨f, _, hpoll⟩ := step_poll hstep
    refine ⟨(poll_bridge hpoll).2.1.trans htodo, fun g hne hg => ?_⟩
    obtain ⟨hsame, hnotify⟩ := poll_other (hne rfl) hpoll
    exact hg.same hsame hnotify

theorem rests_reach {T : Tquic κ} {s t : StreamIo κ} {h : Half}
    (hst : Reach (step T) (fun _ e => IoEvent.Own e ∨ e = .poll h) s t)
    (htodo : s.bridge.todo = []) :
    t.bridge.todo = [] ∧ ∀ g, g ≠ h → s.Rests g → t.Rests g := by
  induction hst with
  | refl => exact ⟨htodo, fun _ _ hg => hg⟩
  | tail _ he hstep ih =>
    obtain ⟨htodo', hlater⟩ := rests_step he ih.1 hstep
    exact ⟨htodo', fun g hne hg => hlater g (fun _ => hne) (ih.2 g hne hg)⟩

def Goes (_ : StreamIo κ) (e : IoEvent κ) : Prop := IoEvent.Own e ∨ ∃ h, e = .poll h

theorem rests_all {T : Tquic κ} (halves : List Half) :
    ∀ s : StreamIo κ, s.Sound → s.bridge.todo = [] →
      ∃ t, Reach (step T) Goes s t ∧ t.bridge.todo = [] ∧ (∀ h ∈ halves, t.Rests h) ∧
        ∀ h, s.Rests h → t.Rests h := by
  induction halves with
  | nil => exact fun s _ htodo => ⟨s, .refl s, htodo, by simp, fun _ hrests => hrests⟩
  | cons h halves ih =>
    intro s hs htodo
    obtain ⟨u, hu, hrests⟩ := leads_idle (T := T) hs htodo h
    obtain ⟨hutodo, hkept⟩ := rests_reach hu htodo
    obtain ⟨t, ht, htodo', hall, hstays⟩ := ih u (sound_reach hu hs) hutodo
    have hgoes := hu.imp fun _ _ he =>
      he.imp_right fun heq => (⟨h, heq⟩ : ∃ h, _ = IoEvent.poll h)
    refine ⟨t, hgoes.trans ht, htodo', ?_, fun g hg => ?_⟩
    · intro g hg
      rcases List.mem_cons.mp hg with rfl | hg
      · exact hstays g hrests
      · exact hall g hg
    · by_cases hgh : g = h
      · subst hgh
        exact hstays g hrests
      · exact hstays g (hkept g hgh hg)

/-- Only finitely many halves have a call. -/
def Few (s : StreamIo κ) : Prop := ∃ halves : List Half, ∀ h f, s.futures h = some f → h ∈ halves

theorem few_step {T : Tquic κ} {s t : StreamIo κ} {e : IoEvent κ} (hs : s.Few)
    (hstep : s.step T e = some t) : t.Few := by
  obtain ⟨halves, hin⟩ := hs
  cases e with
  | process =>
    obtain ⟨_, _, _, _, _, _, hfut⟩ := process_futures hstep
    refine ⟨halves, fun h f hf => ?_⟩
    rcases hfut h with hsame | ⟨g, _, hg, _, _, _⟩
    · exact hin h f (hsame ▸ hf)
    · exact hin h g hg
  | bridge e =>
    obtain ⟨b, _, rfl⟩ := step_bridge hstep
    exact ⟨halves, hin⟩
  | call g buf =>
    obtain ⟨_, rfl⟩ := step_call hstep
    refine ⟨g :: halves, fun h f hf => ?_⟩
    by_cases hh : h = g
    · exact hh ▸ List.mem_cons_self
    · simp only [Function.update_of_ne hh] at hf
      exact List.mem_cons_of_mem _ (hin h f hf)
  | poll g =>
    obtain ⟨f', hf', hpoll⟩ := step_poll hstep
    refine ⟨halves, fun h f hf => ?_⟩
    by_cases hh : h = g
    · subst hh
      exact hin h f' hf'
    · exact hin h f ((poll_other hh hpoll).1 ▸ hf)
  | drop g =>
    obtain ⟨f', hf', hdrop⟩ := step_drop hstep
    refine ⟨halves, fun h f hf => ?_⟩
    by_cases hh : h = g
    · subst hh
      exact hin h f' hf'
    · exact hin h f ((drop_other hh hdrop).1 ▸ hf)

/-- No call gets stuck: from any reachable state the bridge thread and the polls of the calls
alone lead to a state in which the thread has nothing to do and every call is over, or sleeps
in `notified()` with nothing there to wake it. -/
theorem calls_rest (T : Tquic κ) (connId : Nat) (conn : κ) (remoteAddr : SocketAddr)
    (isServer : Bool) (s : StreamIo κ)
    (hs : Reach (step T) Any (init connId conn remoteAddr isServer) s) :
    ∃ t, Reach (step T) Goes s t ∧ Quiet (step T) IoEvent.Own t ∧
      ∀ h f, t.futures h = some f → f.point = .parked ∧
        ∃ m, t.bridge.cn.notify h = some m ∧ f.serial ∈ m.waiters ∧ f.serial ∉ m.notified ∧
          m.permit = false := by
  have hsound := sound_reach hs (sound_init connId conn remoteAddr isServer)
  obtain ⟨u, hu, hquiet⟩ := (own_works T).reach_quiet s
  have husound := sound_reach hu hsound
  obtain ⟨halves, hin⟩ : u.Few := by
    have hfew : (init connId conn remoteAddr isServer).Few := ⟨[], nofun⟩
    exact (hs.trans hu.any).invariant (fun _ _ _ hI _ hstep => few_step hI hstep) hfew
  obtain ⟨v, hv, hvtodo, hall, hstays⟩ := rests_all (T := T) halves u husound (quiet_idle hquiet).1
  have hrests : ∀ h, v.Rests h := by
    intro h
    by_cases hh : h ∈ halves
    · exact hall h hh
    · apply hstays
      intro f hf
      exact absurd (hin h f hf) hh
  obtain ⟨t, ht, htquiet⟩ := (own_works T).reach_quiet v
  have hown : ∀ (a : StreamIo κ) e, IoEvent.Own e → Goes a e := fun _ _ he => Or.inl he
  have hgoes := (hu.imp hown).trans (hv.trans (ht.imp hown))
  refine ⟨t, hgoes, htquiet, fun h f hf => ?_⟩
  obtain ⟨hparked, m, hm, hasleep⟩ := rests_own ht hvtodo (hrests h) f hf
  exact ⟨hparked, m, hm, by simp [hasleep.1], by simp [hasleep.2], hasleep.permit⟩

/-- A read that meets a `Done` and sleeps, and a write that has only been called. -/
def restingRun : List (IoEvent Script) :=
  [.call (.recv 0) [0], .poll (.recv 0), .poll (.recv 0), .process, .poll (.recv 0),
    .poll (.recv 0), .poll (.recv 0), .poll (.recv 0), .call (.send 0) [7]]

theorem calls_rest_two :
    ∃ s t : StreamIo Script,
      run (step Tquic.scripted) (init 0 { reads := [.error .done] } .unspecified false)
        restingRun = some s ∧
      (∃ f, s.futures (.recv 0) = some f ∧ f.point = .parked) ∧
      (∃ f, s.futures (.send 0) = some f ∧ f.point = .begin) ∧
      Reach (step Tquic.scripted) Goes s t ∧ t.bridge.queue = [] ∧
      ∀ h f, t.futures h = some f → f.point = .parked := by
  obtain ⟨s, hs, hread, hwrite⟩ : ∃ s : StreamIo Script,
      run (step Tquic.scripted) (init 0 { reads := [.error .done] } .unspecified false)
        restingRun = some s ∧
      (∃ f, s.futures (.recv 0) = some f ∧ f.point = .parked) ∧
      ∃ f, s.futures (.send 0) = some f ∧ f.point = .begin :=
    ⟨_, rfl, ⟨_, rfl, rfl⟩, _, rfl, rfl⟩
  obtain ⟨t, ht, hquiet, hparked⟩ :=
    calls_rest Tquic.scripted 0 _ .unspecified false s (reach_any_of_run hs)
  exact ⟨s, t, hs, hread, hwrite, ht, (quiet_idle hquiet).2, fun h f hf => (hparked h f hf).1⟩

end StreamIo

end TokioTquic
