import TokioTquic.Waiting

/-!
# Closing a connection and the parked futures

`on_conn_closed` stores the close reason and touches no `Notify`. A future sees
the reason when it gets to one of its checks; between the first check and its
wakeup it depends on the permit of its half.
-/

namespace TokioTquic
open Async
set_option autoImplicit false

universe u
variable {κ : Type u}

/-- The future has passed the first check, and nothing stored will wake it. -/
def Exposed (n : Option (Notify Nat)) (f : IoFuture) : Prop :=
  match f.point with
  | .entry | .notified => ∀ m ∈ n, m.permit = false
  | .parked => ∀ m ∈ n, f.serial ∉ m.notified
  | _ => False

theorem not_exposed_of_not_waits {n : Option (Notify Nat)} {f : IoFuture} (hf : ¬ f.Waits) :
    ¬ Exposed n f := by
  rcases f with ⟨serial, buf, point⟩
  cases point <;> simp_all [IoFuture.Waits, Exposed]

theorem exposed_coming {n : Option (Notify Nat)} {f : IoFuture}
    (hf : f.point = .entry ∨ f.point = .notified) :
    Exposed n f ↔ ∀ m ∈ n, m.permit = false := by
  rcases hf with hf | hf <;> simp [Exposed, hf]

theorem exposed_parked {n : Option (Notify Nat)} {f : IoFuture} (hf : f.point = .parked) :
    Exposed n f ↔ ∀ m ∈ n, f.serial ∉ m.notified := by
  simp [Exposed, hf]

theorem Exposed.mono {n n' : Option (Notify Nat)} {f : IoFuture} (h : Exposed n' f)
    (hkeep : ∀ m ∈ n, ∃ m' ∈ n', (m.permit = true → m'.permit = true) ∧
      ∀ w ∈ m.notified, w ∈ m'.notified) : Exposed n f := by
  by_cases hw : f.Waits
  · rcases hp : f.point with _ | _ | _ | _ | _ | _ | _ | _
    case parked =>
      rw [exposed_parked hp] at h ⊢
      intro m hm hmem
      obtain ⟨m', hm', _, hnotified⟩ := hkeep m hm
      exact h m' hm' (hnotified _ hmem)
    case entry | notified =>
      rw [exposed_coming (by simp [hp])] at h ⊢
      intro m hm
      obtain ⟨m', hm', hpermit, _⟩ := hkeep m hm
      by_contra hne
      simp [h m' hm'] at hpermit
      exact hne hpermit
    all_goals simp [IoFuture.Waits, hp] at hw
  · exact absurd h (not_exposed_of_not_waits hw)

/-- Once the reason is stored, no move leaves a future exposed that was not. -/
theorem SeatStep.not_exposed {closed : Option ConnectionError} {n n' : Option (Notify Nat)}
    {f f' : Option IoFuture} (h : SeatStep closed n f n' f') (hclosed : closed.isSome)
    (hs : Seat n f) (hne : ∀ g ∈ f, ¬ Exposed n g) : ∀ g ∈ f', ¬ Exposed n' g := by
  cases h with
  | keep => exact hne
  | touch =>
    intro g hg hex
    apply hne g hg
    apply hex.mono
    intro m hm
    obtain rfl := Option.mem_def.mp hm
    exact ⟨m, rfl, id, fun _ => id⟩
  | wake =>
    intro g hg hex
    apply hne g hg
    apply hex.mono
    intro m hm
    obtain rfl := Option.mem_def.mp hm
    exact ⟨m.notifyOne, rfl, Notify.notifyOne_permit, fun _ => Notify.mem_notifyOne⟩
  | move _ _ hf' _ => exact fun g hg => not_exposed_of_not_waits (hf' g hg)
  | enter _ _ hopen => simp [hopen] at hclosed
  | @register _ f hp =>
    intro g hg hex
    obtain rfl : { f with point := .notified } = g := by simpa using hg
    rw [exposed_coming (Or.inr rfl)] at hex
    apply hne f rfl
    rw [exposed_coming (Or.inl hp)]
    intro m hm
    obtain rfl := Option.mem_def.mp hm
    exact hex m rfl
  | @poll m f hp =>
    intro g hg
    have hready : (m.poll f.serial).1 = true := by
      have hf := hne f rfl
      rcases hp with hp | hp
      · obtain ⟨m', hm', hidle⟩ := (seat_notified hp).mp hs
        obtain rfl : m = m' := by simpa using hm'
        have hpermit : m.permit = true := by simpa [exposed_coming (Or.inr hp)] using hf
        exact (hidle.poll_permit hpermit f.serial).1
      · have hmem : f.serial ∈ m.notified := by simpa [exposed_parked hp] using hf
        simp [Notify.poll, hmem]
    obtain rfl : _ = g := Option.mem_some.mp hg
    apply not_exposed_of_not_waits
    simp [IoFuture.Waits, hready]
  | cancel => simp

namespace StreamIo

def Exposed (s : StreamIo κ) (h : Half) : Prop :=
  ∃ f ∈ s.futures h, TokioTquic.Exposed (s.bridge.cn.notify h) f

def Released (s : StreamIo κ) (h : Half) : Prop :=
  ∀ f ∈ s.futures h, f.point = .parked →
    ∃ m ∈ s.bridge.cn.notify h, f.serial ∈ m.notified ∨ m.permit = true

theorem closed_step {T : Tquic κ} {s s' : StreamIo κ} {e : IoEvent κ}
    (hs : s.bridge.cn.closed.isSome) (h : s.step T e = some s') :
    s'.bridge.cn.closed.isSome := by
  cases e with
  | process => rwa [(seat_process h (.recv 0)).1]
  | bridge e =>
    obtain ⟨b, hb, rfl⟩ := step_bridge h
    obtain ⟨_, hcn | ⟨op, _, hcn⟩⟩ := Bridge.step_cn hb
    · simpa [hcn] using hs
    · simpa [hcn] using SharedOp.exec_closed _ op hs
  | call g buf =>
    obtain ⟨_, rfl⟩ := step_call h
    exact hs
  | poll g =>
    obtain ⟨f, _, h⟩ := step_poll h
    rwa [(poll_bridge h).2.2]
  | drop g =>
    obtain ⟨f, _, h⟩ := step_drop h
    rwa [(drop_bridge h).2.2]

theorem not_exposed_step {T : Tquic κ} {s s' : StreamIo κ} {e : IoEvent κ}
    (hclosed : s.bridge.cn.closed.isSome) (hs : s.Seated) (hne : ∀ h, ¬ s.Exposed h)
    (hstep : s.step T e = some s') : ∀ h, ¬ s'.Exposed h := by
  intro g
  have hg : ∀ f ∈ s.futures g, ¬ TokioTquic.Exposed (s.bridge.cn.notify g) f :=
    fun f hf hex => hne g ⟨f, hf, hex⟩
  have hmove : SeatStep s.bridge.cn.closed (s.bridge.cn.notify g) (s.futures g)
      (s'.bridge.cn.notify g) (s'.futures g) → ¬ s'.Exposed g := by
    rintro hm ⟨f, hf, hex⟩
    exact hm.not_exposed hclosed (hs g) hg f hf hex
  cases e with
  | process =>
    obtain ⟨hcn, hfut | ⟨f, r, _, _, hfut⟩⟩ := seat_process hstep g
    · rintro ⟨f, hf, hex⟩
      rw [hcn] at hex
      rw [hfut] at hf
      exact hg f hf hex
    · rintro ⟨f', hf', hex⟩
      rw [hfut] at hf'
      obtain rfl : _ = f' := Option.mem_some.mp hf'
      exact not_exposed_of_not_waits (by simp [IoFuture.Waits]) hex
  | bridge e => exact hmove (seat_step hstep (by simp) g)
  | call g' buf => exact hmove (seat_step hstep (by simp) g)
  | poll g' => exact hmove (seat_step hstep (by simp) g)
  | drop g' => exact hmove (seat_step hstep (by simp) g)

/-- The close reason is stored and nobody will miss it. -/
structure Sealed (s : StreamIo κ) : Prop where
  closed : s.bridge.cn.closed.isSome
  seated : s.Seated
  not_exposed : ∀ h, ¬ s.Exposed h

theorem sealed_step {T : Tquic κ} {s s' : StreamIo κ} {e : IoEvent κ} (hs : s.Sealed)
    (h : s.step T e = some s') : s'.Sealed :=
  ⟨closed_step hs.closed h, seated_step hs.seated h,
    not_exposed_step hs.closed hs.seated hs.not_exposed h⟩

theorem released_of_not_exposed {s : StreamIo κ} {h : Half} (hs : s.Seated)
    (hne : ¬ s.Exposed h) : s.Released h := by
  intro f hf hp
  have hfut := Option.mem_def.mp hf
  have hseat := hs h
  rw [hfut, seat_parked hp] at hseat
  obtain ⟨m, hm, hheld⟩ := hseat
  refine ⟨m, hm, Or.inl ?_⟩
  by_contra hmem
  apply hne
  refine ⟨f, hf, (exposed_parked hp).mpr ?_⟩
  intro m' hm'
  exact Option.mem_unique hm hm' ▸ hmem

/-! ## An exposed future parks for ever -/

theorem not_released_of_parked {s : StreamIo κ} {h : Half} {f : IoFuture} (hs : s.Seated)
    (hf : s.futures h = some f) (hp : f.point = .parked)
    (hex : TokioTquic.Exposed (s.bridge.cn.notify h) f) : ¬ s.Released h := by
  intro hr
  obtain ⟨m, hm, hwake⟩ := hr f hf hp
  have hmem := (exposed_parked hp).mp hex m hm
  have hseat := hs h
  rw [hf, seat_parked hp] at hseat
  obtain ⟨m', hm', hheld⟩ := hseat
  obtain rfl := Option.mem_unique hm hm'
  rcases hheld with hasleep | hawake
  · rcases hwake with hwake | hwake
    · exact hmem hwake
    · simp [hasleep.permit] at hwake
  · simp [hawake.2] at hmem

theorem parks {T : Tquic κ} {s : StreamIo κ} {h : Half} (hs : s.Seated) (hex : s.Exposed h) :
    ∃ t, Reach (step T) Any s t ∧ ¬ t.Released h := by
  obtain ⟨f, hf, hex⟩ := hex
  rw [Option.mem_def] at hf
  have hnotified : ∀ {s : StreamIo κ} {f : IoFuture}, s.Seated → s.futures h = some f →
      f.point = .notified → TokioTquic.Exposed (s.bridge.cn.notify h) f →
      ∃ t, Reach (step T) Any s t ∧ ¬ t.Released h := by
    intro s f hs hf hp hex
    have hseat := hs h
    rw [hf, seat_notified hp] at hseat
    obtain ⟨m, hm, hidle⟩ := hseat
    have hpermit := (exposed_coming (Or.inr hp)).mp hex m hm
    rw [Option.mem_def] at hm
    obtain ⟨hwait, hasleep⟩ := hidle.poll_asleep hpermit f.serial
    have hstep : s.step T (.poll h) =
        some ((s.setCn (s.bridge.cn.setNotify (m.poll f.serial).2 h)).goto h f .parked) := by
      simp [step, hf, poll, hp, hm, hwait]
    refine ⟨_, .single trivial hstep, ?_⟩
    apply not_released_of_parked (seated_step hs hstep) (goto_self _ h f .parked) rfl
    rw [exposed_parked rfl]
    intro m' hm'
    obtain rfl : (m.poll f.serial).2 = m' := by simpa using hm'
    simp [hasleep.2]
  by_cases hw : f.Waits
  · rcases hp : f.point with _ | _ | _ | _ | _ | _ | _ | _
    case entry =>
      have hstep : s.step T (.poll h) =
          some ((s.setCn (s.bridge.cn.getOrCreate h)).goto h f .notified) := by
        simp [step, hf, poll, hp]
      have hex' : TokioTquic.Exposed (some ((s.bridge.cn.notify h).getD .new))
          { f with point := .notified } := by
        rw [exposed_coming (Or.inr rfl)]
        intro m hm
        obtain rfl := Option.mem_some.mp hm
        have hpermit := (exposed_coming (Or.inl hp)).mp hex
        cases hn : s.bridge.cn.notify h with
        | none => rfl
        | some m => exact hpermit m hn
      obtain ⟨t, ht, hstuck⟩ := hnotified (seated_step hs hstep) (goto_self _ h f .notified) rfl
        (by simpa [ConnNotify.getOrCreate_notify] using hex')
      exact ⟨t, (Reach.single trivial hstep).trans ht, hstuck⟩
    case notified => exact hnotified hs hf hp hex
    case parked => exact ⟨s, .refl s, not_released_of_parked hs hf hp hex⟩
    all_goals simp [IoFuture.Waits, hp] at hw
  · exact absurd hex (not_exposed_of_not_waits hw)

/-- A close releases every future parked at any time after it exactly when no
future is exposed at the moment the reason is stored. -/
theorem close_releases_iff (T : Tquic κ) (connId : Nat) (conn : κ) (remoteAddr : SocketAddr)
    (isServer : Bool) (s s' : StreamIo κ) (error : ConnectionError) (rest : List SharedOp)
    (hs : Reach (step T) Any (init connId conn remoteAddr isServer) s)
    (htodo : s.bridge.todo = .sendClosed error :: rest)
    (hexec : s.step T (.bridge .exec) = some s') :
    (∀ t, Reach (step T) Any s' t → ∀ h, t.Released h) ↔ ∀ h, ¬ s.Exposed h := by
  have hseated := seated_reach hs (seated_init connId conn remoteAddr isServer)
  have hseated' := seated_step hseated hexec
  obtain ⟨b, hb, rfl⟩ := step_bridge hexec
  obtain ⟨op, todo, htodo', rfl⟩ := Bridge.step_exec hb
  obtain ⟨rfl, rfl⟩ : op = .sendClosed error ∧ todo = rest := by
    rw [htodo] at htodo'
    simpa [eq_comm] using htodo'
  have hsame : ∀ h, (SharedOp.exec s.bridge.cn (.sendClosed error)).1.notify h =
      s.bridge.cn.notify h := fun h => by simp [SharedOp.exec_notify]
  constructor
  · rintro hall h ⟨f, hf, hex⟩
    obtain ⟨t, ht, hstuck⟩ := @parks κ T _ h hseated' ⟨f, hf, by rwa [hsame h]⟩
    exact hstuck (hall t ht h)
  · intro hne t ht h
    have hsealed : Sealed _ :=
      ⟨rfl, hseated', fun h ⟨f, hf, hex⟩ => hne h ⟨f, hf, by rwa [hsame h] at hex⟩⟩
    have ht' : t.Sealed := ht.invariant (fun _ _ _ hI _ hstep => sealed_step hI hstep) hsealed
    exact released_of_not_exposed ht'.seated (ht'.not_exposed h)

/-- A parked reader is woken, a writer that is about to park finds a permit, and then the
connection is lost. -/
def readyRun : List (IoEvent Script) :=
  [.call (.recv 0) [0], .poll (.recv 0), .poll (.recv 0), .process, .poll (.recv 0),
    .poll (.recv 0), .poll (.recv 0), .poll (.recv 0), .call (.send 0) [7], .poll (.send 0),
    .poll (.send 0), .process, .poll (.send 0), .poll (.send 0),
    .bridge (.callback (.onStreamReadable 0)), .bridge .exec, .bridge .exec,
    .bridge (.callback (.onStreamWritable 0)), .bridge .exec, .bridge .exec,
    .bridge (.callback (.onConnClosed ⟨none, none, true, false, false⟩))]

theorem close_releases_ready :
    ∃ s s', run (step Tquic.scripted) (init 0 { writes := [.error .done] } .unspecified false)
        readyRun = some s ∧ s.step Tquic.scripted (.bridge .exec) = some s' ∧
      (∃ f, s.futures (.recv 0) = some f ∧ f.point = .parked) ∧
      (∃ f, s.futures (.send 0) = some f ∧ f.point = .entry) ∧
      ∀ t, Reach (step Tquic.scripted) Any s' t → ∀ h, t.Released h := by
  obtain ⟨s, s', hs, hs', htodo, f, m, hf, hparked, hm, hwoken, g, n, hg, hentry, hn, hpermit,
      hothers⟩ : ∃ s s', run (step Tquic.scripted)
        (init 0 { writes := [.error .done] } .unspecified false) readyRun = some s ∧
      s.step Tquic.scripted (.bridge .exec) = some s' ∧
      s.bridge.todo = [.sendClosed .timedOut, .wakeEstablish] ∧
      ∃ f m, s.futures (.recv 0) = some f ∧ f.point = .parked ∧
        s.bridge.cn.notify (.recv 0) = some m ∧ m.notified = [f.serial] ∧
      ∃ g n, s.futures (.send 0) = some g ∧ g.point = .entry ∧
        s.bridge.cn.notify (.send 0) = some n ∧ n.permit = true ∧
      ∀ h, h ≠ .recv 0 → h ≠ .send 0 → s.futures h = none := by
    refine ⟨_, _, rfl, rfl, rfl, _, _, rfl, rfl, rfl, rfl, _, _, rfl, rfl, rfl, rfl, ?_⟩
    intro h hrecv hsend
    match h, hrecv, hsend with
    | .recv 0, hrecv, _ => exact absurd rfl hrecv
    | .recv (_ + 1), _, _ => rfl
    | .send 0, _, hsend => exact absurd rfl hsend
    | .send (_ + 1), _, _ => rfl
  refine ⟨s, s', hs, hs', ⟨f, hf, hparked⟩, ⟨g, hg, hentry⟩, ?_⟩
  apply (close_releases_iff Tquic.scripted 0 _ .unspecified false s s' .timedOut _
    (reach_any_of_run hs) htodo hs').mpr
  rintro h ⟨k, hk, hex⟩
  by_cases hrecv : h = .recv 0
  · subst hrecv
    obtain rfl : f = k := Option.some.inj (hf.symm.trans hk)
    rw [exposed_parked hparked] at hex
    exact hex m hm (by rw [hwoken]; exact List.mem_singleton_self _)
  · by_cases hsend : h = .send 0
    · subst hsend
      obtain rfl : g = k := Option.some.inj (hg.symm.trans hk)
      rw [exposed_coming (Or.inl hentry)] at hex
      rw [hex n hn] at hpermit
      cases hpermit
    · rw [hothers h hrecv hsend] at hk
      cases hk

/-- A reader parks on an idle connection, and the idle timeout closes it. -/
def timeoutRun : List (IoEvent Script) :=
  [.call (.recv 0) [0], .poll (.recv 0), .poll (.recv 0), .process, .poll (.recv 0),
    .poll (.recv 0), .poll (.recv 0), .poll (.recv 0),
    .bridge (.callback (.onConnClosed ⟨none, none, true, false, false⟩)), .bridge .exec,
    .bridge .exec]

theorem close_strands_reader :
    ¬ ∀ t, Reach (step Tquic.scripted) Any (init 0 {} .unspecified false) t →
      t.bridge.cn.closed.isSome → t.bridge.todo = [] → ∀ h, t.Released h := by
  intro hall
  obtain ⟨t, hrun, hclosed, htodo, f, m, hf, hp, hm, hstuck⟩ :
      ∃ t, run (step Tquic.scripted) (init 0 {} .unspecified false) timeoutRun = some t ∧
        t.bridge.cn.closed = some .timedOut ∧ t.bridge.todo = [] ∧
        ∃ f m, t.futures (.recv 0) = some f ∧ f.point = .parked ∧
          t.bridge.cn.notify (.recv 0) = some m ∧ m.notified = [] ∧ m.permit = false :=
    ⟨_, rfl, rfl, rfl, _, _, rfl, rfl, rfl, rfl, rfl⟩
  have hreleased := hall t (reach_any_of_run hrun) (by simp [hclosed]) htodo (.recv 0)
  obtain ⟨m', hm', hwake⟩ := hreleased f hf hp
  obtain rfl : m = m' := Option.some.inj (hm.symm.trans hm')
  simp [hstuck.1, hstuck.2] at hwake

end StreamIo

end TokioTquic
