import TokioTquic.Requests

/-!
# No lost wakeup between the engine and a blocked call

The engine owes `on_stream_readable` (`on_stream_writable`) for a half as soon
as its answer to some request on it changes from `Done` to anything else. While
the last reply a future got was empty, either the engine would still answer
`Done`, or a wake is due, queued in the running callback, stored as a permit or
already given to the future.
-/

namespace TokioTquic
open Async
set_option autoImplicit false

universe u v
variable {κ : Type u} {ρ : Type v}

/-- The engine's answer to the request of a future of `h` is `Done`. -/
def WouldBlock (T : Tquic κ) (c : κ) (h : Half) (buf : Bytes) : Prop :=
  match h with
  | .recv streamId => (T.streamRead c streamId buf.length).1 = .error .done
  | .send streamId => (T.streamWrite c streamId buf false).1 = .error .done

/-- An answer other than `Done` is data, FIN, capacity or an error. -/
structure Tquic.Productive (T : Tquic κ) : Prop where
  read : ∀ c streamId maxLen data fin, 0 < maxLen →
    (T.streamRead c streamId maxLen).1 = .ok (data, fin) → data ≠ [] ∨ fin = true
  write : ∀ c streamId data n, data ≠ [] → (T.streamWrite c streamId data false).1 = .ok n → 0 < n

/-- The answer to some non-empty request changes from `Done` to anything else. -/
def Unblocks (T : Tquic κ) (conn conn' : Option κ) (h : Half) : Prop :=
  ∃ c ∈ conn, ∃ c' ∈ conn', ∃ buf, buf ≠ [] ∧ WouldBlock T c h buf ∧ ¬ WouldBlock T c' h buf

def Callback.wakes : Callback → Option Half
  | .onStreamReadable streamId => some (.recv streamId)
  | .onStreamWritable streamId => some (.send streamId)
  | _ => none

theorem Callback.wakes_ops {cb : Callback} {h : Half} (hw : cb.wakes = some h)
    (isServer : Bool) : cb.ops isServer = [.getOrCreate h, .notifyOne h] := by
  cases cb <;> simp [Callback.wakes] at hw <;> subst hw <;> rfl

theorem wouldBlock_of_empty {T : Tquic κ} (hT : T.Productive) {c : κ} {conn' : Option κ}
    {h : Half} {buf : Bytes} {a a' : ρ} {r : Reply} (hbuf : buf ≠ [])
    (hproc : processConnCommand T (some c) (h.request buf a) = (conn', some (a', r)))
    (hr : r.empty) : WouldBlock T c h buf := by
  cases h with
  | recv streamId =>
    simp only [Half.request, processConnCommand, onEngine, Prod.mk.injEq,
      Option.some.injEq] at hproc
    obtain ⟨_, _, rfl⟩ := hproc
    have hpos : 0 < buf.length := List.length_pos_iff.mpr hbuf
    rcases hanswer : (T.streamRead c streamId buf.length).1 with e | ⟨data, fin⟩
    · cases e <;> simp [hanswer, readReply, Reply.empty] at hr
      exact hanswer
    · have hdata := hT.read c streamId buf.length data fin hpos hanswer
      simp only [hanswer, readReply, Reply.empty, List.take_eq_nil_iff] at hr
      rcases hdata with hdata | hfin
      · rcases hr.1 with hzero | hnil
        · omega
        · exact absurd hnil hdata
      · simp [hfin] at hr
  | send streamId =>
    simp only [Half.request, processConnCommand, onEngine, Prod.mk.injEq,
      Option.some.injEq] at hproc
    obtain ⟨_, _, rfl⟩ := hproc
    rcases hanswer : (T.streamWrite c streamId buf false).1 with e | n
    · cases e <;> simp [hanswer, writeReply, Reply.empty] at hr
      exact hanswer
    · have hpos := hT.write c streamId buf n hbuf hanswer
      simp only [hanswer, writeReply, Reply.empty] at hr
      omega

/-! ## Signals -/

def Signal (n : Option (Notify Nat)) (f : Option IoFuture) : Prop :=
  (∃ m ∈ n, m.permit = true) ∨
    ∃ g ∈ f, g.point = .parked ∧ ∃ m ∈ n, g.serial ∈ m.notified

theorem signal_of_not_waits {n : Option (Notify Nat)} {f f' : Option IoFuture}
    (hf : ∀ g ∈ f, ¬ g.Waits) (h : Signal n f) : Signal n f' := by
  rcases h with hpermit | ⟨g, hg, hp, _⟩
  · exact Or.inl hpermit
  · exact absurd (by simp [IoFuture.Waits, hp]) (hf g hg)

/-- A move to a blocked future comes from a blocked one, and a signal for it stays. -/
theorem SeatStep.blocked {closed : Option ConnectionError} {n n' : Option (Notify Nat)}
    {f f' : Option IoFuture} (h : SeatStep closed n f n' f') (hs : Seat n f) :
    ∀ g' ∈ f', g'.Blocked →
      (∃ g ∈ f, g.Blocked ∧ g.buf = g'.buf) ∧ (Signal n f → Signal n' f') := by
  cases h with
  | keep => exact fun g hg hb => ⟨⟨g, hg, hb, rfl⟩, id⟩
  | touch =>
    intro g hg hb
    refine ⟨⟨g, hg, hb, rfl⟩, fun hsignal => ?_⟩
    rcases n with _ | m
    · simp [Signal] at hsignal
    · exact hsignal
  | wake =>
    intro g hg hb
    refine ⟨⟨g, hg, hb, rfl⟩, fun hsignal => ?_⟩
    rcases hsignal with ⟨m, hm, hpermit⟩ | ⟨g, hg, hp, m, hm, hmem⟩
    · exact Or.inl ⟨m.notifyOne, Option.mem_map_of_mem _ hm, Notify.notifyOne_permit hpermit⟩
    · exact Or.inr ⟨g, hg, hp, m.notifyOne, Option.mem_map_of_mem _ hm, Notify.mem_notifyOne hmem⟩
  | move _ hf _ hblocked =>
    exact fun g' hg' hb => ⟨hblocked g' hg' hb, signal_of_not_waits hf⟩
  | @enter _ f hp _ =>
    intro g' hg' _
    obtain rfl := Option.mem_some.mp hg'
    exact ⟨⟨f, rfl, by simp [IoFuture.Blocked, hp], rfl⟩,
      signal_of_not_waits (by simp [IoFuture.Waits, hp])⟩
  | @register _ f hp =>
    intro g' hg' _
    obtain rfl := Option.mem_some.mp hg'
    refine ⟨⟨f, rfl, by simp [IoFuture.Blocked, hp], rfl⟩, ?_⟩
    rintro (⟨m, hm, hpermit⟩ | ⟨g, hg, hp', _⟩)
    · rw [Option.mem_def] at hm
      subst hm
      exact Or.inl ⟨m, rfl, hpermit⟩
    · obtain rfl := Option.mem_some.mp hg
      simp [hp] at hp'
  | @poll m f hp =>
    intro g' hg' hb
    obtain rfl := Option.mem_some.mp hg'
    have hblocked : f.Blocked := by rcases hp with hp | hp <;> simp [IoFuture.Blocked, hp]
    refine ⟨⟨f, rfl, hblocked, rfl⟩, fun hsignal => ?_⟩
    -- a signal makes the poll ready, and a ready future is not blocked
    have hready : (m.poll f.serial).1 = true := by
      rcases hsignal with ⟨m', hm', hpermit⟩ | ⟨g, hg, hp', m', hm', hmem⟩
      · obtain rfl := Option.mem_some.mp hm'
        by_cases hmem : f.serial ∈ m.notified
        · simp [Notify.poll, hmem]
        · simp [Notify.poll, hmem, m.exclusive hpermit, hpermit]
      · obtain rfl := Option.mem_some.mp hm'
        obtain rfl := Option.mem_some.mp hg
        simp [Notify.poll, hmem]
    simp [IoFuture.Blocked, hready] at hb
  | cancel => simp

theorem signal_notifyOne {m : Notify Nat} {f : Option IoFuture} (hs : Seat (some m) f) :
    Signal (some m.notifyOne) f := by
  rcases f with _ | g
  · exact Or.inl ⟨_, rfl, (hs m rfl).notifyOne.2⟩
  · by_cases hp : g.point = .parked
    · obtain ⟨m', hm', hheld⟩ := (seat_parked hp).mp hs
      obtain rfl := Option.mem_some.mp hm'
      have hawake := hheld.elim Notify.Asleep.notifyOne Notify.Awake.notifyOne
      exact Or.inr ⟨g, rfl, hp, _, rfl, by simp [hawake.2]⟩
    · have hidle : m.Idle := by
        by_cases hn : g.point = .notified
        · obtain ⟨m', hm', hidle⟩ := (seat_notified hn).mp hs
          obtain rfl := Option.mem_some.mp hm'
          exact hidle
        · by_cases he : g.point = .entry
          · exact (seat_entry he).mp hs m rfl
          · refine (seat_of_not_waits ?_).mp hs m rfl
            rcases g with ⟨serial, buf, point⟩
            cases point <;> simp_all [IoFuture.Waits]
      exact Or.inl ⟨_, rfl, hidle.notifyOne.2⟩

/-! ## Runs with the engine's obligations -/

/-- `due h` holds from the moment the engine owes a callback for `h` until it
calls it. -/
structure Watched (κ : Type u) where
  io : StreamIo κ
  due : Half → Prop

namespace Watched

def init (connId : Nat) (conn : κ) (remoteAddr : SocketAddr) (isServer : Bool) : Watched κ :=
  ⟨.init connId conn remoteAddr isServer, fun _ => False⟩

def Notifies (e : IoEvent κ) (h : Half) : Prop :=
  ∃ cb, e = .bridge (.callback cb) ∧ cb.wakes = some h

def step (T : Tquic κ) (w : Watched κ) (e : IoEvent κ) : Option (Watched κ) :=
  (w.io.step T e).map fun io =>
    ⟨io, fun h => (w.due h ∧ ¬ Notifies e h) ∨ Unblocks T w.io.bridge.conn io.bridge.conn h⟩

def NonEmpty (_ : Watched κ) : IoEvent κ → Prop
  | .call _ buf => buf ≠ []
  | _ => True

/-- A wake for `h` is stored, given, queued or due. -/
def Pending (w : Watched κ) (h : Half) : Prop :=
  Signal (w.io.bridge.cn.notify h) (w.io.futures h) ∨ .notifyOne h ∈ w.io.bridge.todo ∨ w.due h

/-- Whoever is blocked would still be answered `Done`, or has a wake pending. -/
def Covered (T : Tquic κ) (w : Watched κ) : Prop :=
  ∀ h, ∀ f ∈ w.io.futures h, f.Blocked → ∀ c ∈ w.io.bridge.conn,
    WouldBlock T c h f.buf ∨ w.Pending h

structure Safe (T : Tquic κ) (w : Watched κ) : Prop where
  seated : w.io.Seated
  queued : w.io.Queued
  nonEmpty : ∀ h, ∀ f ∈ w.io.futures h, f.buf ≠ []
  armed : ∀ h, .notifyOne h ∈ w.io.bridge.todo →
    (w.io.bridge.cn.notify h).isSome ∨ w.io.bridge.todo.head? = some (.getOrCreate h)
  blocked : w.Covered T

theorem step_some {T : Tquic κ} {w w' : Watched κ} {e : IoEvent κ} (h : w.step T e = some w') :
    w.io.step T e = some w'.io ∧ ∀ h, w'.due h ↔
      (w.due h ∧ ¬ Notifies e h) ∨ Unblocks T w.io.bridge.conn w'.io.bridge.conn h := by
  obtain ⟨io, hio, rfl⟩ := Option.map_eq_some_iff.mp h
  exact ⟨hio, fun _ => Iff.rfl⟩

/-- A change of the engine either leaves a request blocked or makes a wake due. -/
theorem wouldBlock_or_due {T : Tquic κ} {w w' : Watched κ} {e : IoEvent κ}
    (hstep : w.step T e = some w') {h : Half} {buf : Bytes} (hbuf : buf ≠ []) {c c' : κ}
    (hc : w.io.bridge.conn = some c) (hc' : w'.io.bridge.conn = some c')
    (hblock : WouldBlock T c h buf) : WouldBlock T c' h buf ∨ w'.due h := by
  by_cases hstill : WouldBlock T c' h buf
  · exact Or.inl hstill
  · exact Or.inr (((step_some hstep).2 h).mpr (Or.inr ⟨c, hc, c', hc', buf, hbuf, hblock, hstill⟩))

theorem nonEmpty_step {T : Tquic κ} {w w' : Watched κ} {e : IoEvent κ} (hs : w.Safe T)
    (hguard : w.NonEmpty e) (hstep : w.step T e = some w') :
    ∀ h, ∀ f ∈ w'.io.futures h, f.buf ≠ [] := by
  intro h f hf
  rcases StreamIo.step_buf (step_some hstep).1 hf with ⟨g, hg, hbuf⟩ | rfl
  · exact hbuf ▸ hs.nonEmpty h g hg
  · exact hguard

theorem armed_step {T : Tquic κ} {w w' : Watched κ} {e : IoEvent κ} (hs : w.Safe T)
    (hstep : w.step T e = some w') : ∀ h, .notifyOne h ∈ w'.io.bridge.todo →
      (w'.io.bridge.cn.notify h).isSome ∨ w'.io.bridge.todo.head? = some (.getOrCreate h) := by
  obtain ⟨hio, _⟩ := step_some hstep
  intro h hmem
  have hkeep : e ≠ .process → w'.io.bridge.todo = w.io.bridge.todo →
      (w'.io.bridge.cn.notify h).isSome ∨ w'.io.bridge.todo.head? = some (.getOrCreate h) := by
    intro he htodo
    rw [htodo] at hmem ⊢
    rcases hs.armed h hmem with hsome | hhead
    · exact Or.inl ((StreamIo.seat_step hio he h).isSome hsome)
    · exact Or.inr hhead
  cases e with
  | process =>
    obtain ⟨_, b, _, hp, hb, _, _⟩ := StreamIo.process_futures hio
    have htodo := (Bridge.process_some hp).2.2.2.1
    rw [hb, htodo] at hmem
    simp at hmem
  | bridge e =>
    obtain ⟨b, hb, hw'⟩ := StreamIo.step_bridge hio
    rw [hw'] at hmem ⊢
    cases e with
    | engine conn =>
      obtain ⟨htodo, _, rfl⟩ := Bridge.step_engine hb
      simp [htodo] at hmem
    | callback cb =>
      obtain ⟨_, rfl⟩ := Bridge.step_callback hb
      right
      cases cb <;> simp_all [Callback.ops]
    | exec =>
      obtain ⟨op, todo, htodo, rfl⟩ := Bridge.step_exec hb
      left
      rcases List.mem_append.mp hmem with hmore | hrest
      · obtain ⟨g, rfl, hnext, hsome⟩ := SharedOp.mem_exec hmore
        obtain rfl : h = g := by simpa using hnext
        exact hsome
      · rw [SharedOp.exec_notify]
        rcases hs.armed h (by simp [htodo, hrest]) with hsome | hhead
        · split
          · rfl
          · split <;> simpa using hsome
        · obtain rfl : op = .getOrCreate h := by simpa [htodo] using hhead
          simp
  | call g buf =>
    obtain ⟨_, hw'⟩ := StreamIo.step_call hio
    exact hkeep (by simp) (by rw [hw'])
  | poll g =>
    obtain ⟨f, _, hpoll⟩ := StreamIo.step_poll hio
    exact hkeep (by simp) (StreamIo.poll_bridge hpoll).2.1
  | drop g =>
    obtain ⟨f, _, hdrop⟩ := StreamIo.step_drop hio
    exact hkeep (by simp) (StreamIo.drop_bridge hdrop).2.1

theorem due_step {T : Tquic κ} {w w' : Watched κ} {e : IoEvent κ} (hstep : w.step T e = some w')
    {h : Half} (hdue : w.due h) (hcb : ¬ Notifies e h) : w'.due h := by
  apply ((step_some hstep).2 h).mpr
  exact Or.inl ⟨hdue, hcb⟩

theorem covered_future {T : Tquic κ} {w w' : Watched κ} {e : IoEvent κ} (hs : w.Safe T)
    (hstep : w.step T e = some w') (he : e ≠ .process) (hcb : ∀ h, ¬ Notifies e h)
    (hconn : w'.io.bridge.conn = w.io.bridge.conn)
    (htodo : w'.io.bridge.todo = w.io.bridge.todo) : w'.Covered T := by
  intro h f hf hb c hc
  obtain ⟨⟨g, hg, hgb, hbuf⟩, hsignal⟩ :=
    (StreamIo.seat_step (step_some hstep).1 he h).blocked (hs.seated h) f hf hb
  rw [hconn] at hc
  rcases hs.blocked h g hg hgb c hc with hblock | hstored | hqueued | howed
  · exact Or.inl (hbuf ▸ hblock)
  · exact Or.inr (Or.inl (hsignal hstored))
  · exact Or.inr (Or.inr (Or.inl (htodo ▸ hqueued)))
  · exact Or.inr (Or.inr (Or.inr (due_step hstep howed (hcb h))))

theorem process_conn {T : Tquic κ} {conn conn' : Option κ} {cmd : ConnCommand ρ}
    {reply : Option (ρ × Reply)} (hproc : processConnCommand T conn cmd = (conn', reply))
    (hconn' : conn'.isSome) : conn.isSome := by
  cases conn with
  | none =>
    have hnone := processConnCommand_none T cmd
    rw [hproc] at hnone
    have hgone : conn' = none := hnone
    simp [hgone] at hconn'
  | some c => rfl

theorem covered_process {T : Tquic κ} (hT : T.Productive) {w w' : Watched κ} (hs : w.Safe T)
    (hstep : w.step T .process = some w') : w'.Covered T := by
  intro h f hf hb c' hc'
  obtain ⟨cmd, b, reply, hp, hb', _, hfut⟩ := StreamIo.process_futures (step_some hstep).1
  obtain ⟨htodo, hqueue, hcn, _, hproc⟩ := Bridge.process_some hp
  rw [Option.mem_def] at hc'
  have hsome : w.io.bridge.conn.isSome := by
    apply process_conn hproc
    rw [← hb', hc']
    rfl
  obtain ⟨c, hc⟩ := Option.isSome_iff_exists.mp hsome
  have hchange : ∀ buf, buf ≠ [] → WouldBlock T c h buf →
      WouldBlock T c' h buf ∨ w'.Pending h := by
    intro buf hbuf hblock
    rcases wouldBlock_or_due hstep hbuf hc hc' hblock with hstill | hdue
    · exact Or.inl hstill
    · exact Or.inr (Or.inr (Or.inr hdue))
  rcases hfut h with hsame | ⟨g, r, hg, hpoint, hreply, hanswered⟩
  · rw [hsame] at hf
    rcases hs.blocked h f hf hb c hc with hblock | hstored | hqueued | howed
    · exact hchange f.buf (hs.nonEmpty h f hf) hblock
    · right
      left
      rwa [hb', hcn, hsame]
    · simp [htodo] at hqueued
    · exact Or.inr (Or.inr (Or.inr (due_step hstep howed (by simp [Notifies]))))
  · -- the future was answered: an empty reply is a `Done` of the engine
    obtain rfl : _ = f := Option.some.inj (hanswered.symm.trans hf)
    obtain ⟨h', buf, n, rfl, _, hlive⟩ := hs.queued.request cmd (by simp [hqueue])
    rw [hreply, hc] at hproc
    have hrespond := processConnCommand_reply hproc
    rw [Half.request_respond] at hrespond
    obtain ⟨rfl, rfl⟩ : h' = h ∧ n = g.serial := by simpa using hrespond
    obtain ⟨_, rfl⟩ := hlive g hg rfl
    have hbuf := hs.nonEmpty h' g hg
    exact hchange g.buf hbuf (wouldBlock_of_empty hT hbuf hproc hb)

theorem covered_engine {T : Tquic κ} {w w' : Watched κ} {conn : Option κ} (hs : w.Safe T)
    (hstep : w.step T (.bridge (.engine conn)) = some w') : w'.Covered T := by
  intro h f hf hblocked c' hc'
  obtain ⟨b, hb, hw'⟩ := StreamIo.step_bridge (step_some hstep).1
  obtain ⟨htodo, hsome, rfl⟩ := Bridge.step_engine hb
  obtain ⟨c, hc⟩ := Option.isSome_iff_exists.mp hsome
  rw [Option.mem_def] at hc'
  have hf₀ : f ∈ w.io.futures h := by simpa [hw'] using hf
  rcases hs.blocked h f hf₀ hblocked c hc with hblock | hstored | hqueued | howed
  · rcases wouldBlock_or_due hstep (hs.nonEmpty h f hf₀) hc hc' hblock with hstill | hdue
    · exact Or.inl hstill
    · exact Or.inr (Or.inr (Or.inr hdue))
  · exact Or.inr (Or.inl (by rwa [hw']))
  · simp [htodo] at hqueued
  · exact Or.inr (Or.inr (Or.inr (due_step hstep howed (by simp [Notifies]))))

theorem covered_callback {T : Tquic κ} {w w' : Watched κ} {cb : Callback} (hs : w.Safe T)
    (hstep : w.step T (.bridge (.callback cb)) = some w') : w'.Covered T := by
  intro h f hf hblocked c hc
  obtain ⟨b, hb, hw'⟩ := StreamIo.step_bridge (step_some hstep).1
  obtain ⟨htodo, rfl⟩ := Bridge.step_callback hb
  have hf₀ : f ∈ w.io.futures h := by simpa [hw'] using hf
  have hc₀ : c ∈ w.io.bridge.conn := by simpa [hw'] using hc
  rcases hs.blocked h f hf₀ hblocked c hc₀ with hblock | hstored | hqueued | howed
  · exact Or.inl hblock
  · exact Or.inr (Or.inl (by rwa [hw']))
  · simp [htodo] at hqueued
  · right
    right
    by_cases hwakes : cb.wakes = some h
    · left
      rw [hw']
      simp [Callback.wakes_ops hwakes]
    · right
      apply due_step hstep howed
      rintro ⟨cb', heq, hwakes'⟩
      obtain rfl : cb = cb' := by simpa using heq
      exact hwakes hwakes'

theorem covered_exec {T : Tquic κ} {w w' : Watched κ} (hs : w.Safe T)
    (hstep : w.step T (.bridge .exec) = some w') : w'.Covered T := by
  intro h f hf hblocked c hc
  have hio := (step_some hstep).1
  have hmove := (StreamIo.seat_step hio (by simp) h).blocked (hs.seated h) f hf hblocked
  obtain ⟨b, hb, hw'⟩ := StreamIo.step_bridge hio
  obtain ⟨op, todo, htodo, rfl⟩ := Bridge.step_exec hb
  have hf₀ : f ∈ w.io.futures h := by simpa [hw'] using hf
  have hc₀ : c ∈ w.io.bridge.conn := by simpa [hw'] using hc
  rcases hs.blocked h f hf₀ hblocked c hc₀ with hblock | hstored | hqueued | howed
  · exact Or.inl hblock
  · exact Or.inr (Or.inl (hmove.2 hstored))
  · right
    rw [htodo] at hqueued
    rcases List.mem_cons.mp hqueued with rfl | hrest
    · -- the wake is delivered: the entry exists by now
      left
      have hentry : (w.io.bridge.cn.notify h).isSome := by
        simpa [htodo] using hs.armed h (by simp [htodo])
      obtain ⟨m, hm⟩ := Option.isSome_iff_exists.mp hentry
      have hseat := hs.seated h
      rw [hm] at hseat
      rw [hw']
      simpa [SharedOp.exec_notify, hm] using signal_notifyOne hseat
    · right
      left
      rw [hw']
      exact List.mem_append_right _ hrest
  · exact Or.inr (Or.inr (Or.inr (due_step hstep howed (by simp [Notifies]))))

theorem covered_step {T : Tquic κ} (hT : T.Productive) {w w' : Watched κ} {e : IoEvent κ}
    (hs : w.Safe T) (hstep : w.step T e = some w') : w'.Covered T := by
  have hio := (step_some hstep).1
  cases e with
  | process => exact covered_process hT hs hstep
  | bridge e =>
    cases e with
    | engine conn => exact covered_engine hs hstep
    | callback cb => exact covered_callback hs hstep
    | exec => exact covered_exec hs hstep
  | call g buf =>
    obtain ⟨_, hw'⟩ := StreamIo.step_call hio
    exact covered_future hs hstep (by simp) (by simp [Notifies]) (by rw [hw']) (by rw [hw'])
  | poll g =>
    obtain ⟨f, _, hpoll⟩ := StreamIo.step_poll hio
    obtain ⟨hconn, htodo, _⟩ := StreamIo.poll_bridge hpoll
    exact covered_future hs hstep (by simp) (by simp [Notifies]) hconn htodo
  | drop g =>
    obtain ⟨f, _, hdrop⟩ := StreamIo.step_drop hio
    obtain ⟨hconn, htodo, _⟩ := StreamIo.drop_bridge hdrop
    exact covered_future hs hstep (by simp) (by simp [Notifies]) hconn htodo

theorem safe_step {T : Tquic κ} (hT : T.Productive) {w w' : Watched κ} {e : IoEvent κ}
    (hs : w.Safe T) (hguard : w.NonEmpty e) (hstep : w.step T e = some w') : w'.Safe T where
  seated := StreamIo.seated_step hs.seated (step_some hstep).1
  queued := StreamIo.queued_step hs.queued (step_some hstep).1
  nonEmpty := nonEmpty_step hs hguard hstep
  armed := armed_step hs hstep
  blocked := covered_step hT hs hstep

theorem safe_init (T : Tquic κ) (connId : Nat) (conn : κ) (remoteAddr : SocketAddr)
    (isServer : Bool) : (init connId conn remoteAddr isServer).Safe T where
  seated := StreamIo.seated_init connId conn remoteAddr isServer
  queued := StreamIo.queued_init connId conn remoteAddr isServer
  nonEmpty := by simp [init, StreamIo.init]
  armed := by simp [init, StreamIo.init]
  blocked := by simp [Covered, init, StreamIo.init]

/-- A parked future for which no wake is stored, given, queued or due would
still be answered `Done`. -/
theorem no_lost_wakeup (T : Tquic κ) (hT : T.Productive) (connId : Nat) (conn : κ)
    (remoteAddr : SocketAddr) (isServer : Bool) (w : Watched κ)
    (hw : Reach (step T) NonEmpty (init connId conn remoteAddr isServer) w) (h : Half)
    (f : IoFuture) (c : κ) (hf : w.io.futures h = some f) (hp : f.point = .parked)
    (hc : w.io.bridge.conn = some c)
    (hnone : ∀ m ∈ w.io.bridge.cn.notify h, f.serial ∉ m.notified ∧ m.permit = false)
    (htodo : .notifyOne h ∉ w.io.bridge.todo) (hdue : ¬ w.due h) : WouldBlock T c h f.buf := by
  have hsafe : w.Safe T :=
    hw.invariant (fun _ _ _ hI hguard hstep => safe_step hT hI hguard hstep)
      (safe_init T connId conn remoteAddr isServer)
  have hblocked : f.Blocked := by simp [IoFuture.Blocked, hp]
  rcases hsafe.blocked h f hf hblocked c hc with hblock | hstored | hqueued | howed
  · exact hblock
  · rcases hstored with ⟨m, hm, hpermit⟩ | ⟨g, hg, _, m, hm, hmem⟩
    · simp [(hnone m hm).2] at hpermit
    · cases Option.some.inj (hf.symm.trans hg)
      exact absurd hmem (hnone m hm).1
  · exact absurd hqueued htodo
  · exact absurd howed hdue

/-- An engine that hands out data on stream 0 while it has some. -/
def buffered : Tquic Script :=
  { Tquic.scripted with
    streamRead := fun s streamId _ =>
      match streamId, s.reads with
      | 0, .ok (b :: data, fin) :: reads => (.ok (b :: data, fin), { s with reads := reads })
      | _, _ => (.error .done, s)
    streamWrite := fun s _ _ _ => (.error .done, s) }

theorem buffered_productive : buffered.Productive := by
  constructor
  · intro c streamId maxLen data fin _ h
    simp only [buffered] at h
    split at h <;> cases h
    exact Or.inl (List.cons_ne_nil _ _)
  · intro c streamId data n _ h
    cases h

/-- Nothing becomes due while the engine's answers stay the same, or where it has data. -/
theorem not_due_step {T : Tquic κ} {w w' : Watched κ} {e : IoEvent κ} {h : Half}
    (hstep : w.step T e = some w') (hdue : ¬ w.due h ∨ Notifies e h)
    (hconn : w'.io.bridge.conn = w.io.bridge.conn ∨
      ∀ c ∈ w.io.bridge.conn, ∀ buf, buf ≠ [] → ¬ WouldBlock T c h buf) : ¬ w'.due h := by
  intro hdue'
  rcases ((step_some hstep).2 h).mp hdue' with ⟨howed, hno⟩ | ⟨c, hc, c', hc', buf, hbuf, hb, hnb⟩
  · rcases hdue with hnone | hnotifies
    · exact hnone howed
    · exact hno hnotifies
  · rcases hconn with hsame | hready
    · rw [hsame] at hc'
      obtain rfl := Option.mem_unique hc hc'
      exact hnb hb
    · exact hready c hc buf hbuf hb

theorem not_due_run {T : Tquic κ} {h : Half} (es : List (IoEvent κ)) :
    ∀ {w w' : Watched κ}, ¬ w.due h →
      Along (step T) (fun w e => (w.io.step T e).map (·.bridge.conn) = some w.io.bridge.conn) w es →
      run (step T) w es = some w' → ¬ w'.due h := by
  induction es with
  | nil =>
    intro w w' hdue _ hrun
    obtain rfl : w = w' := by simpa [run] using hrun
    exact hdue
  | cons e es ih =>
    intro w w' hdue hall hrun
    obtain ⟨hconn, hall⟩ := hall
    cases hstep : step T w e with
    | none => simp [run, hstep] at hrun
    | some u =>
      rw [hstep] at hall
      rw [(step_some hstep).1, Option.map_some, Option.some.injEq] at hconn
      exact ih (not_due_step hstep (Or.inl hdue) (Or.inl hconn)) hall
        (by simpa [run, hstep] using hrun)

/-- A read finds nothing; before it parks, a byte comes and `on_stream_readable` is called. -/
def permitRun : List (IoEvent Script) :=
  [.call (.recv 0) [0], .poll (.recv 0), .poll (.recv 0), .process, .poll (.recv 0),
    .bridge (.engine (some { reads := [.ok ([1], false)] }))]

/-- The read takes the permit and asks again. -/
def readAgainRun : List (IoEvent Script) :=
  [.bridge .exec, .bridge .exec, .poll (.recv 0), .poll (.recv 0), .poll (.recv 0),
    .poll (.recv 0), .poll (.recv 0)]

/-- It has the byte, and the next read parks. -/
def parkRun : List (IoEvent Script) :=
  [.poll (.recv 0), .call (.recv 0) [0], .poll (.recv 0), .poll (.recv 0), .process,
    .poll (.recv 0), .poll (.recv 0), .poll (.recv 0), .poll (.recv 0)]

theorem no_lost_wakeup_buffered :
    ∃ (w : Watched Script) (f : IoFuture),
      run (step buffered) (init 0 {} .unspecified false)
        (permitRun ++ .bridge (.callback (.onStreamReadable 0)) :: readAgainRun ++
          .process :: parkRun) = some w ∧
      w.io.callerBytes (.recv 0) = [1] ∧ w.io.futures (.recv 0) = some f ∧ f.point = .parked ∧
      WouldBlock buffered {} (.recv 0) f.buf := by
  obtain ⟨a, b, c, d, w, -, hb, hc, hd, hw, hrun, hcallback, hagain, hconn, hpark, hbytes, f, m, hf,
      hp, hnone, hm, hnotified, hpermit, htodo⟩ : ∃ a b c d w : Watched Script,
      run (step buffered) (init 0 {} .unspecified false) permitRun = some a ∧
      a.step buffered (.bridge (.callback (.onStreamReadable 0))) = some b ∧
      run (step buffered) b readAgainRun = some c ∧ c.step buffered .process = some d ∧
      run (step buffered) d parkRun = some w ∧
      run (step buffered) (init 0 {} .unspecified false)
        (permitRun ++ .bridge (.callback (.onStreamReadable 0)) :: readAgainRun ++
          .process :: parkRun) = some w ∧
      b.io.bridge.conn = a.io.bridge.conn ∧
      Along (step buffered)
        (fun w e => (w.io.step buffered e).map (·.bridge.conn) = some w.io.bridge.conn)
        b readAgainRun ∧
      c.io.bridge.conn = some { reads := [.ok ([1], false)] } ∧
      Along (step buffered)
        (fun w e => (w.io.step buffered e).map (·.bridge.conn) = some w.io.bridge.conn)
        d parkRun ∧
      w.io.callerBytes (.recv 0) = [1] ∧ ∃ f m, w.io.futures (.recv 0) = some f ∧
        f.point = .parked ∧ w.io.bridge.conn = some {} ∧
        w.io.bridge.cn.notify (.recv 0) = some m ∧ m.notified = [] ∧ m.permit = false ∧
        w.io.bridge.todo = [] :=
    ⟨_, _, _, _, _, rfl, rfl, rfl, rfl, rfl, rfl, rfl,
      ⟨rfl, rfl, rfl, rfl, rfl, rfl, rfl, trivial⟩, rfl,
      ⟨rfl, rfl, rfl, rfl, rfl, rfl, rfl, rfl, rfl, trivial⟩, rfl, _, _, rfl, rfl, rfl, rfl, rfl,
      rfl, rfl⟩
  have hdue : ¬ b.due (.recv 0) :=
    not_due_step hb (Or.inr ⟨_, rfl, rfl⟩) (Or.inl hcallback)
  have hdue := not_due_run _ hdue hagain hc
  have hready : ∀ conn ∈ c.io.bridge.conn, ∀ buf, buf ≠ [] →
      ¬ WouldBlock buffered conn (.recv 0) buf := by
    intro conn hmem buf _ hblock
    rw [hconn] at hmem
    obtain rfl := Option.mem_some.mp hmem
    cases hblock
  have hdue := not_due_step hd (Or.inl hdue) (Or.inr hready)
  have hdue := not_due_run _ hdue hpark hw
  have hreach : Reach (step buffered) NonEmpty (init 0 {} .unspecified false) w := by
    refine reach_of_run (fun e he w => ?_) hrun
    cases e with
    | call h buf =>
      obtain ⟨-, rfl⟩ : h = .recv 0 ∧ buf = [0] := by
        simpa [permitRun, readAgainRun, parkRun] using he
      exact List.cons_ne_nil _ _
    | _ => trivial
  refine ⟨w, f, hrun, hbytes, hf, hp, ?_⟩
  apply no_lost_wakeup buffered buffered_productive 0 {} .unspecified false w hreach (.recv 0) f {}
    hf hp hnone _ _ hdue
  · intro m' hm'
    obtain rfl := Option.mem_some.mp (hm ▸ hm')
    rw [hnotified]
    exact ⟨List.not_mem_nil, hpermit⟩
  · rw [htodo]
    exact List.not_mem_nil

end Watched

end TokioTquic
