import TokioTquic.Waiting

/-!
# Requests and the futures they belong to

Every queued command is the request of a `read` or `write` future. The future
may be gone; one that lives is waiting for the reply, and the buffer it offered
is the one in the request.
-/

namespace TokioTquic
open Async
set_option autoImplicit false

universe u v
variable {κ : Type u} {ρ : Type v}

/-- The oneshot sender a command carries. -/
def ConnCommand.respond : ConnCommand ρ → Option ρ
  | .openBiStream respond => some respond
  | .openUniStream respond => some respond
  | .streamWrite _ _ _ respond => some respond
  | .streamRead _ _ respond => some respond
  | .getRtt respond => some respond
  | .addPath _ _ respond => some respond
  | .abandonPath _ _ respond => some respond
  | .migratePath _ _ respond => some respond
  | .getPathStats _ _ respond => some respond
  | .getPaths respond => some respond
  | _ => none

@[simp] theorem Half.request_respond (h : Half) (buf : Bytes) (respond : ρ) :
    (h.request buf respond).respond = some respond := by
  cases h <;> rfl

@[simp] theorem Half.request_half (h : Half) (buf : Bytes) (respond : ρ) :
    (h.request buf respond).half = some h := by
  cases h <;> rfl

theorem processConnCommand_reply {T : Tquic κ} {conn conn' : Option κ} {cmd : ConnCommand ρ}
    {respond : ρ} {r : Reply} (h : processConnCommand T conn cmd = (conn', some (respond, r))) :
    cmd.respond = some respond := by
  cases cmd <;> simp_all [processConnCommand, ConnCommand.respond]

namespace StreamIo

structure Queued (s : StreamIo κ) : Prop where
  fresh : ∀ h, ∀ f ∈ s.futures h, f.serial < s.next
  request : ∀ cmd ∈ s.bridge.queue, ∃ h buf n, cmd = h.request buf (h, n) ∧ n < s.next ∧
    ∀ f ∈ s.futures h, f.serial = n → f.point = .reply none ∧ f.buf = buf
  nodup : (s.bridge.queue.map ConnCommand.respond).Nodup

theorem queued_init (connId : Nat) (conn : κ) (remoteAddr : SocketAddr) (isServer : Bool) :
    (init connId conn remoteAddr isServer).Queued :=
  ⟨by simp [init], by simp [init], by simp [init]⟩

theorem poll_future {s s' : StreamIo κ} {h : Half} {f : IoFuture} (hs : s.poll h f = some s') :
    s'.next = s.next ∧ f.point ≠ .reply none ∧
      ((s'.bridge.queue = s.bridge.queue ∧
        (s'.futures h = none ∨ ∃ p, p ≠ .reply none ∧ s'.futures h = some { f with point := p })) ∨
      (f.point = .send ∧ s'.bridge.queue = s.bridge.queue ++ [h.request f.buf (h, f.serial)] ∧
        s'.futures h = some { f with point := .reply none })) := by
  cases poll_cases hs with
  | sent hp => exact ⟨rfl, by simp [hp], Or.inr ⟨hp, rfl, goto_self _ h f _⟩⟩
  | ended hp _ | returned hp _ =>
    exact ⟨rfl, by simp [hp], Or.inl ⟨rfl, Or.inl (complete_self _ h _)⟩⟩
  | lost hp _ =>
    have hpoint : f.point ≠ .reply none := by rcases hp with hp | hp <;> simp [hp]
    exact ⟨rfl, hpoint, Or.inl ⟨rfl, Or.inl (complete_self _ h _)⟩⟩
  | resumed hp =>
    have hpoint : f.point ≠ .reply none := by rcases hp with hp | hp <;> simp [hp]
    exact ⟨rfl, hpoint, Or.inl ⟨rfl, Or.inr ⟨.send, by simp, goto_self _ h f _⟩⟩⟩
  | unserved hp _ | entered hp _ | registered hp =>
    exact ⟨rfl, by simp [hp], Or.inl ⟨rfl, Or.inr ⟨_, by simp, goto_self _ h f _⟩⟩⟩
  | waited hp _ =>
    have hpoint : f.point ≠ .reply none := by rcases hp with hp | hp <;> simp [hp]
    refine ⟨rfl, hpoint, Or.inl ⟨rfl, Or.inr ⟨_, ?_, goto_self _ h f _⟩⟩⟩
    split <;> simp

theorem drop_future {s s' : StreamIo κ} {h : Half} {f : IoFuture} (hs : s.drop h f = some s') :
    s'.next = s.next ∧ s'.bridge.queue = s.bridge.queue ∧ s'.futures h = none := by
  unfold drop at hs
  split at hs
  case h_4 => simp at hs
  all_goals
    cases hs
    exact ⟨rfl, rfl, Function.update_self ..⟩

theorem deliver_next (s : StreamIo κ) (x : Option ((Half × Nat) × Reply)) :
    (s.deliver x).next = s.next := by
  unfold deliver
  split
  · split
    · split <;> rfl
    · rfl
  · rfl

theorem recordMoved_next (s : StreamIo κ) (T : Tquic κ) (conn : Option κ)
    (cmd : ConnCommand (Half × Nat)) : (s.recordMoved T conn cmd).next = s.next := by
  unfold recordMoved
  split <;> rfl

theorem process_futures {T : Tquic κ} {s s' : StreamIo κ} (hs : s.step T .process = some s') :
    ∃ cmd b reply, s.bridge.process T = some (cmd, b, reply) ∧ s'.bridge = b ∧
      s'.next = s.next ∧ ∀ h, s'.futures h = s.futures h ∨
        ∃ f r, s.futures h = some f ∧ f.point = .reply none ∧
          reply = some ((h, f.serial), r) ∧
          s'.futures h = some { f with point := .reply (some r) } := by
  obtain ⟨cmd, b, reply, hp, rfl⟩ := step_process hs
  have hframe := recordMoved_frame { s with bridge := b } T s.bridge.conn cmd
  refine ⟨cmd, b, reply, hp, ?_, ?_, fun h => ?_⟩
  · rw [deliver_bridge, hframe.1]
  · rw [deliver_next, recordMoved_next]
  · have hd := deliver_futures ({ s with bridge := b }.recordMoved T s.bridge.conn cmd) reply h
    rwa [hframe.2] at hd

theorem Queued.keep {s s' : StreamIo κ} (hs : s.Queued) (hnext : s.next ≤ s'.next)
    (hqueue : s'.bridge.queue.Sublist s.bridge.queue)
    (hfresh : ∀ h, ∀ f ∈ s'.futures h, f.serial < s'.next)
    (hfut : ∀ h n, n < s.next → some (h, n) ∈ s'.bridge.queue.map ConnCommand.respond →
      ∀ f' ∈ s'.futures h, f'.serial = n → f' ∈ s.futures h) : s'.Queued := by
  refine ⟨hfresh, ?_, hs.nodup.sublist (hqueue.map _)⟩
  intro cmd hcmd
  obtain ⟨h, buf, n, rfl, hn, hlive⟩ := hs.request cmd (hqueue.subset hcmd)
  refine ⟨h, buf, n, rfl, by omega, fun f' hf' hserial => ?_⟩
  have hmem : some (h, n) ∈ s'.bridge.queue.map ConnCommand.respond :=
    List.mem_map.mpr ⟨_, hcmd, h.request_respond buf (h, n)⟩
  exact hlive f' (hfut h n hn hmem f' hf' hserial) hserial

theorem queued_process {T : Tquic κ} {s s' : StreamIo κ} (hs : s.Queued)
    (h : s.step T .process = some s') : s'.Queued := by
  obtain ⟨cmd, b, reply, hp, rfl, hnext, hfut⟩ := process_futures h
  obtain ⟨_, hqueue, _, _, hproc⟩ := Bridge.process_some hp
  apply hs.keep (by omega)
  · rw [hqueue]
    exact List.sublist_cons_self ..
  · intro g f' hf'
    rw [hnext]
    rcases hfut g with hsame | ⟨f, r, hf, _, _, hf''⟩
    · exact hs.fresh g f' (hsame ▸ hf')
    · rw [hf''] at hf'
      obtain rfl := Option.mem_some.mp hf'
      exact hs.fresh g f hf
  · intro g n hn hmem f' hf' hserial
    rcases hfut g with hsame | ⟨f, r, hf, _, hreply, hf''⟩
    · exact hsame ▸ hf'
    · -- the answered request was the head of the queue
      rw [hf''] at hf'
      obtain rfl := Option.mem_some.mp hf'
      obtain rfl : f.serial = n := hserial
      have hnodup := hs.nodup
      rw [hreply] at hproc
      rw [hqueue, List.map_cons, List.nodup_cons, processConnCommand_reply hproc] at hnodup
      exact absurd hmem hnodup.1

theorem Queued.absent {s : StreamIo κ} {h : Half} {f : IoFuture} (hs : s.Queued)
    (hf : s.futures h = some f) (hp : f.point ≠ .reply none) :
    some (h, f.serial) ∉ s.bridge.queue.map ConnCommand.respond := by
  intro hmem
  obtain ⟨cmd, hcmd, hrespond⟩ := List.mem_map.mp hmem
  obtain ⟨g, buf, n, rfl, _, hlive⟩ := hs.request cmd hcmd
  rw [Half.request_respond] at hrespond
  obtain ⟨rfl, rfl⟩ : g = h ∧ n = f.serial := by simpa using hrespond
  exact hp (hlive f hf rfl).1

theorem queued_poll {s s' : StreamIo κ} {g : Half} {f : IoFuture} (hs : s.Queued)
    (hf : s.futures g = some f) (hstep : s.poll g f = some s') : s'.Queued := by
  obtain ⟨hnext, hpoint, hcases⟩ := poll_future hstep
  have hother : ∀ h, h ≠ g → s'.futures h = s.futures h := fun h hne => (poll_other hne hstep).1
  have habsent := hs.absent hf hpoint
  have hserial : ∀ f' ∈ s'.futures g, f'.serial = f.serial := by
    intro f' hf'
    rcases hcases with ⟨_, hnone | ⟨p, _, hsome⟩⟩ | ⟨_, _, hsome⟩
    · simp [hnone] at hf'
    · rw [hsome] at hf'
      obtain rfl := Option.mem_some.mp hf'
      rfl
    · rw [hsome] at hf'
      obtain rfl := Option.mem_some.mp hf'
      rfl
  have hfresh : ∀ h, ∀ f' ∈ s'.futures h, f'.serial < s'.next := by
    intro h f' hf'
    rw [hnext]
    by_cases hh : h = g
    · subst hh
      rw [hserial f' hf']
      exact hs.fresh h f hf
    · exact hs.fresh h f' (hother h hh ▸ hf')
  have hold : ∀ h n, some (h, n) ∈ s.bridge.queue.map ConnCommand.respond →
      ∀ f' ∈ s'.futures h, f'.serial = n → f' ∈ s.futures h := by
    intro h n hmem f' hf' hn
    by_cases hh : h = g
    · subst hh
      rw [← hn, hserial f' hf'] at hmem
      exact absurd hmem habsent
    · exact hother h hh ▸ hf'
  rcases hcases with ⟨hqueue, _⟩ | ⟨_, hqueue, hsome⟩
  · refine hs.keep (by omega) (by rw [hqueue]) hfresh ?_
    rw [hqueue]
    exact fun h n _ hmem => hold h n hmem
  · refine ⟨hfresh, ?_, ?_⟩
    · intro cmd hcmd
      rw [hqueue] at hcmd
      rcases List.mem_append.mp hcmd with hcmd | hcmd
      · obtain ⟨h, buf, n, rfl, hn, hlive⟩ := hs.request cmd hcmd
        refine ⟨h, buf, n, rfl, by omega, fun f' hf' hn' => ?_⟩
        have hmem := List.mem_map.mpr ⟨_, hcmd, h.request_respond buf (h, n)⟩
        exact hlive f' (hold h n hmem f' hf' hn') hn'
      · obtain rfl := List.mem_singleton.mp hcmd
        refine ⟨g, f.buf, f.serial, rfl, ?_, fun f' hf' _ => ?_⟩
        · rw [hnext]
          exact hs.fresh g f hf
        · rw [hsome] at hf'
          obtain rfl := Option.mem_some.mp hf'
          exact ⟨rfl, rfl⟩
    · rw [hqueue, List.map_append, List.nodup_append]
      refine ⟨hs.nodup, by simp, ?_⟩
      intro x hx y hy
      obtain rfl : y = some (g, f.serial) := by simpa using hy
      rintro rfl
      exact habsent hx

theorem queued_step {T : Tquic κ} {s s' : StreamIo κ} {e : IoEvent κ} (hs : s.Queued)
    (h : s.step T e = some s') : s'.Queued := by
  cases e with
  | process => exact queued_process hs h
  | bridge e =>
    obtain ⟨b, hb, rfl⟩ := step_bridge h
    have hqueue := (Bridge.step_cn hb).1
    refine hs.keep (Nat.le_refl _) (by rw [hqueue]) hs.fresh ?_
    exact fun _ _ _ _ _ hf' _ => hf'
  | call g buf =>
    obtain ⟨hnone, rfl⟩ := step_call h
    refine hs.keep (Nat.le_succ _) (List.Sublist.refl _) ?_ ?_
    · intro h f hf
      by_cases hh : h = g
      · subst hh
        simp only [Function.update_self, Option.mem_some] at hf
        subst hf
        exact Nat.lt_succ_self s.next
      · simp only [ne_eq, hh, not_false_eq_true, Function.update_of_ne] at hf
        exact Nat.lt_succ_of_lt (hs.fresh h f hf)
    · intro h n hn _ f hf hserial
      by_cases hh : h = g
      · subst hh
        simp only [Function.update_self, Option.mem_some] at hf
        subst hf
        exact absurd hserial (by simp only; omega)
      · simpa only [ne_eq, hh, not_false_eq_true, Function.update_of_ne] using hf
  | poll g =>
    obtain ⟨f, hf, h⟩ := step_poll h
    exact queued_poll hs hf h
  | drop g =>
    obtain ⟨f, hf, h⟩ := step_drop h
    obtain ⟨hnext, hqueue, hgone⟩ := drop_future h
    have hold : ∀ h, ∀ f' ∈ s'.futures h, f' ∈ s.futures h := by
      intro h' f' hf'
      by_cases hh : h' = g
      · subst hh
        simp [hgone] at hf'
      · exact (drop_other hh h).1 ▸ hf'
    refine hs.keep (by omega) (by rw [hqueue]) ?_ fun h _ _ _ f' hf' _ => hold h f' hf'
    intro h f' hf'
    rw [hnext]
    exact hs.fresh h f' (hold h f' hf')

theorem step_buf {T : Tquic κ} {s s' : StreamIo κ} {e : IoEvent κ} (hstep : s.step T e = some s')
    {h : Half} {f' : IoFuture} (hf' : s'.futures h = some f') :
    (∃ f ∈ s.futures h, f.buf = f'.buf) ∨ e = .call h f'.buf := by
  cases e with
  | process =>
    obtain ⟨_, _, _, _, _, _, hfut⟩ := process_futures hstep
    rcases hfut h with hsame | ⟨f, r, hf, _, _, hsome⟩
    · exact Or.inl ⟨f', hsame ▸ hf', rfl⟩
    · obtain rfl := Option.some.inj (hsome.symm.trans hf')
      exact Or.inl ⟨f, hf, rfl⟩
  | bridge e =>
    obtain ⟨b, _, rfl⟩ := step_bridge hstep
    exact Or.inl ⟨f', hf', rfl⟩
  | call g buf =>
    obtain ⟨_, rfl⟩ := step_call hstep
    by_cases hh : h = g
    · subst hh
      simp only [Function.update_self, Option.some.injEq] at hf'
      subst hf'
      exact Or.inr rfl
    · simp only [ne_eq, hh, not_false_eq_true, Function.update_of_ne] at hf'
      exact Or.inl ⟨f', hf', rfl⟩
  | poll g =>
    obtain ⟨f, hf, hpoll⟩ := step_poll hstep
    by_cases hh : h = g
    · subst hh
      obtain ⟨_, _, ⟨_, hnone | ⟨p, _, hsome⟩⟩ | ⟨_, _, hsome⟩⟩ := poll_future hpoll
      · simp [hnone] at hf'
      · obtain rfl := Option.some.inj (hsome.symm.trans hf')
        exact Or.inl ⟨f, hf, rfl⟩
      · obtain rfl := Option.some.inj (hsome.symm.trans hf')
        exact Or.inl ⟨f, hf, rfl⟩
    · exact Or.inl ⟨f', (poll_other hh hpoll).1 ▸ hf', rfl⟩
  | drop g =>
    obtain ⟨f, hf, hdrop⟩ := step_drop hstep
    by_cases hh : h = g
    · subst hh
      simp [(drop_future hdrop).2.2] at hf'
    · exact Or.inl ⟨f', (drop_other hh hdrop).1 ▸ hf', rfl⟩

end StreamIo

end TokioTquic
