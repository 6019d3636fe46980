import TokioTquic.StreamIo

/-!
# What a step does to one stream half

For a fixed half every step moves the pair of its `Notify` and its future by one
of the moves of `SeatStep`. From these follows how the two fit together: the
`Notify` has at most one waiter, the parked future.
-/

namespace TokioTquic
open Async
set_option autoImplicit false

universe u
variable {κ : Type u}

/-! ## Replies without effect -/

/-- The replies `read` and `write` answer by waiting. -/
def Reply.empty : Reply → Prop
  | .read (.ok (data, fin)) => data = [] ∧ fin = false
  | .written (.ok n) => n = 0
  | _ => False

namespace IoFuture

def Waits (f : IoFuture) : Prop :=
  match f.point with
  | .entry | .notified | .parked => True
  | _ => False

/-- The last reply was empty, and the future has not been woken since. -/
def Blocked (f : IoFuture) : Prop :=
  match f.point with
  | .reply (some r) => r.empty
  | .check | .entry | .notified | .parked => True
  | _ => False

end IoFuture

/-! ## Moves -/

/-- The moves of a half: its `Notify` and its future before and after. -/
inductive SeatStep (closed : Option ConnectionError) :
    Option (Notify Nat) → Option IoFuture → Option (Notify Nat) → Option IoFuture → Prop where
  | keep (n : Option (Notify Nat)) (f : Option IoFuture) : SeatStep closed n f n f
  | touch (n : Option (Notify Nat)) (f : Option IoFuture) :
      SeatStep closed n f (some (n.getD .new)) f
  | wake (n : Option (Notify Nat)) (f : Option IoFuture) :
      SeatStep closed n f (n.map Notify.notifyOne) f
  | move (n : Option (Notify Nat)) {f f' : Option IoFuture} :
      (∀ g ∈ f, ¬ g.Waits) → (∀ g ∈ f', ¬ g.Waits) →
      (∀ g' ∈ f', g'.Blocked → ∃ g ∈ f, g.Blocked ∧ g.buf = g'.buf) → SeatStep closed n f n f'
  | enter (n : Option (Notify Nat)) {f : IoFuture} :
      f.point = .check → closed = none →
        SeatStep closed n (some f) n (some { f with point := .entry })
  | register (n : Option (Notify Nat)) {f : IoFuture} :
      f.point = .entry →
        SeatStep closed n (some f) (some (n.getD .new)) (some { f with point := .notified })
  | poll (n : Notify Nat) {f : IoFuture} :
      f.point = .notified ∨ f.point = .parked →
        SeatStep closed (some n) (some f) (some (n.poll f.serial).2)
          (some { f with point := if (n.poll f.serial).1 then .recheck else .parked })
  | cancel (n : Option (Notify Nat)) {f : IoFuture} :
      f.point = .parked →
        SeatStep closed n (some f) (n.map (·.cancel f.serial)) none

namespace StreamIo

@[simp] theorem goto_bridge (s : StreamIo κ) (h : Half) (f : IoFuture) (p : Point) :
    (s.goto h f p).bridge = s.bridge := rfl

@[simp] theorem complete_bridge (s : StreamIo κ) (h : Half) (c : Completion) :
    (s.complete h c).bridge = s.bridge := rfl

@[simp] theorem setCn_cn (s : StreamIo κ) (cn : ConnNotify) : (s.setCn cn).bridge.cn = cn := rfl

theorem goto_self (s : StreamIo κ) (h : Half) (f : IoFuture) (p : Point) :
    (s.goto h f p).futures h = some { f with point := p } := by simp [goto]

theorem goto_other (s : StreamIo κ) {h g : Half} (hne : g ≠ h) (f : IoFuture) (p : Point) :
    (s.goto h f p).futures g = s.futures g := by simp [goto, hne]

theorem complete_self (s : StreamIo κ) (h : Half) (c : Completion) :
    (s.complete h c).futures h = none := by simp [complete]

theorem complete_other (s : StreamIo κ) {h g : Half} (hne : g ≠ h) (c : Completion) :
    (s.complete h c).futures g = s.futures g := by simp [complete, hne]

theorem onReply_frame {s s' : StreamIo κ} {h : Half} {buf : Bytes} {r : Reply}
    {p : Pass Completion} (hr : s.onReply h buf r = some (s', p)) :
    ∃ recv, s' = { s with recv := recv } := by
  unfold onReply at hr
  split at hr
  · simp only [Option.some.injEq, Prod.mk.injEq] at hr
    exact ⟨_, hr.1.symm⟩
  · simp only [Option.some.injEq, Prod.mk.injEq] at hr
    exact ⟨s.recv, hr.1.symm⟩
  · simp at hr

theorem onReply_wait {s s' : StreamIo κ} {h : Half} {buf : Bytes} {r : Reply}
    (hr : s.onReply h buf r = some (s', .wait)) : r.empty := by
  unfold onReply at hr
  split at hr
  · rename_i streamId r
    simp only [Option.some.injEq, Prod.mk.injEq] at hr
    rcases r with e | ⟨data, fin⟩
    · simp [RecvStream.onReply, Pass.map] at hr
    · cases data <;> cases fin <;> simp_all [RecvStream.onReply, Pass.map, Reply.empty]
  · rename_i streamId r
    simp only [Option.some.injEq, Prod.mk.injEq] at hr
    rcases r with e | n
    · simp [SendStream.onReply, Pass.map] at hr
    · cases n <;> simp_all [SendStream.onReply, Pass.map, Reply.empty]
  · simp at hr

/-- What one poll of the future of `h` can do. -/
inductive Polled (s : StreamIo κ) (h : Half) (f : IoFuture) : StreamIo κ → Prop where
  | ended {c : Completion} :
      f.point = .begin → s.alreadyClosed h f.buf = some c → Polled s h f (s.complete h c)
  | resumed : f.point = .begin ∨ f.point = .recheck → Polled s h f (s.goto h f .send)
  | sent :
      f.point = .send →
        Polled s h f ({ s with bridge := s.bridge.sendCmd (h.request f.buf (h, f.serial)) }.goto
          h f (.reply none))
  | returned {r : Reply} {recv : Nat → RecvStream} {c : Completion} :
      f.point = .reply (some r) →
        s.onReply h f.buf r = some ({ s with recv := recv }, .ret c) →
          Polled s h f ({ s with recv := recv }.complete h c)
  | unserved {r : Reply} {recv : Nat → RecvStream} :
      f.point = .reply (some r) →
        s.onReply h f.buf r = some ({ s with recv := recv }, .wait) →
          Polled s h f ({ s with recv := recv }.goto h f .check)
  | lost {err : ConnectionError} :
      f.point = .check ∨ f.point = .recheck → s.bridge.cn.closed = some err →
        Polled s h f (s.complete h (h.connectionLost f.buf err))
  | entered : f.point = .check → s.bridge.cn.closed = none → Polled s h f (s.goto h f .entry)
  | registered :
      f.point = .entry →
        Polled s h f ((s.setCn (s.bridge.cn.getOrCreate h)).goto h f .notified)
  | waited {n : Notify Nat} :
      f.point = .notified ∨ f.point = .parked → s.bridge.cn.notify h = some n →
        Polled s h f ((s.setCn (s.bridge.cn.setNotify (n.poll f.serial).2 h)).goto h f
          (if (n.poll f.serial).1 then .recheck else .parked))

theorem poll_cases {s s' : StreamIo κ} {h : Half} {f : IoFuture} (hs : s.poll h f = some s') :
    Polled s h f s' := by
  unfold poll at hs
  split at hs
  case h_1 hp =>
    split at hs
    · rename_i hc
      cases hs
      exact .ended hp hc
    · cases hs
      exact .resumed (Or.inl hp)
  case h_2 hp =>
    cases hs
    exact .sent hp
  case h_3 => simp at hs
  case h_4 hp =>
    split at hs
    · rename_i hr
      cases hs
      obtain ⟨recv, rfl⟩ := onReply_frame hr
      exact .returned hp hr
    · rename_i hr
      cases hs
      obtain ⟨recv, rfl⟩ := onReply_frame hr
      exact .unserved hp hr
    · simp at hs
  case h_5 hp =>
    split at hs
    · rename_i hclosed
      cases hs
      exact .lost (Or.inl hp) hclosed
    · rename_i hopen
      cases hs
      exact .entered hp hopen
  case h_6 hp =>
    cases hs
    exact .registered hp
  case h_7 hp | h_8 hp =>
    split at hs
    · rename_i hn
      cases hs
      exact .waited (by simp [hp]) hn
    · simp at hs
  case h_9 hp =>
    split at hs
    · rename_i hclosed
      cases hs
      exact .lost (Or.inr hp) hclosed
    · cases hs
      exact .resumed (Or.inr hp)

/-! ## Every step is a move -/

theorem seat_poll {s s' : StreamIo κ} {h : Half} {f : IoFuture} (hf : s.futures h = some f)
    (hs : s.poll h f = some s') :
    SeatStep s.bridge.cn.closed (s.bridge.cn.notify h) (s.futures h)
      (s'.bridge.cn.notify h) (s'.futures h) := by
  have hdone : ∀ (t : StreamIo κ) (c : Completion), t.bridge = s.bridge → ¬ f.Waits →
      SeatStep s.bridge.cn.closed (s.bridge.cn.notify h) (s.futures h)
        ((t.complete h c).bridge.cn.notify h) ((t.complete h c).futures h) := by
    intro t c ht hw
    rw [complete_self, complete_bridge, ht, hf]
    exact .move _ (by simpa using hw) (by simp) (by simp)
  have hgoto : ∀ (t : StreamIo κ) (p : Point), t.bridge.cn = s.bridge.cn → ¬ f.Waits →
      ¬ IoFuture.Waits { f with point := p } →
      (IoFuture.Blocked { f with point := p } → f.Blocked) →
      SeatStep s.bridge.cn.closed (s.bridge.cn.notify h) (s.futures h)
        ((t.goto h f p).bridge.cn.notify h) ((t.goto h f p).futures h) := by
    intro t p ht hw hw' hb
    rw [goto_self, goto_bridge, ht, hf]
    refine .move _ (by simpa using hw) (by simpa using hw') ?_
    intro g' hg' hblocked
    obtain rfl : { f with point := p } = g' := by simpa using hg'
    exact ⟨f, rfl, hb hblocked, rfl⟩
  cases poll_cases hs with
  | ended hp _ => exact hdone s _ rfl (by simp [IoFuture.Waits, hp])
  | resumed hp =>
    have hw : ¬ f.Waits := by rcases hp with hp | hp <;> simp [IoFuture.Waits, hp]
    exact hgoto s _ rfl hw (by simp [IoFuture.Waits]) (by simp [IoFuture.Blocked])
  | sent hp =>
    exact hgoto _ _ rfl (by simp [IoFuture.Waits, hp]) (by simp [IoFuture.Waits])
      (by simp [IoFuture.Blocked])
  | returned hp _ => exact hdone _ _ rfl (by simp [IoFuture.Waits, hp])
  | unserved hp hr =>
    have hempty := onReply_wait hr
    apply hgoto _ _ rfl (by simp [IoFuture.Waits, hp])
    · simp [IoFuture.Waits]
    · intro _
      simpa [IoFuture.Blocked, hp] using hempty
  | lost hp _ =>
    have hw : ¬ f.Waits := by rcases hp with hp | hp <;> simp [IoFuture.Waits, hp]
    exact hdone s _ rfl hw
  | entered hp hopen =>
    rw [goto_self, goto_bridge, hf]
    exact .enter _ hp hopen
  | registered hp =>
    rw [goto_self, goto_bridge, setCn_cn, ConnNotify.getOrCreate_notify, hf]
    exact .register _ hp
  | waited hp hn =>
    rw [goto_self, goto_bridge, setCn_cn, ConnNotify.setNotify_notify, hf, hn]
    exact .poll _ hp

theorem poll_other {s s' : StreamIo κ} {h g : Half} {f : IoFuture} (hne : g ≠ h)
    (hs : s.poll h f = some s') :
    s'.futures g = s.futures g ∧ s'.bridge.cn.notify g = s.bridge.cn.notify g := by
  cases poll_cases hs with
  | ended | returned | lost => exact ⟨complete_other _ hne _, rfl⟩
  | resumed | sent | unserved | entered => exact ⟨goto_other _ hne f _, rfl⟩
  | registered => exact ⟨goto_other _ hne f _, ConnNotify.getOrCreate_notify_ne _ hne⟩
  | waited => exact ⟨goto_other _ hne f _, ConnNotify.setNotify_notify_ne _ _ hne⟩

theorem poll_bridge {s s' : StreamIo κ} {h : Half} {f : IoFuture} (hs : s.poll h f = some s') :
    s'.bridge.conn = s.bridge.conn ∧ s'.bridge.todo = s.bridge.todo ∧
      s'.bridge.cn.closed = s.bridge.cn.closed := by
  cases poll_cases hs with
  | registered => exact ⟨rfl, rfl, ConnNotify.getOrCreate_closed _ h⟩
  | waited => exact ⟨rfl, rfl, ConnNotify.setNotify_closed _ _ h⟩
  | _ => exact ⟨rfl, rfl, rfl⟩

theorem drop_bridge {s s' : StreamIo κ} {h : Half} {f : IoFuture} (hs : s.drop h f = some s') :
    s'.bridge.conn = s.bridge.conn ∧ s'.bridge.todo = s.bridge.todo ∧
      s'.bridge.cn.closed = s.bridge.cn.closed := by
  unfold drop at hs
  split at hs
  case h_3 =>
    cases hs
    exact ⟨rfl, rfl, ConnNotify.modifyNotify_closed _ h _⟩
  case h_4 => simp at hs
  case h_1 | h_2 =>
    cases hs
    exact ⟨rfl, rfl, rfl⟩

theorem seat_drop {s s' : StreamIo κ} {h : Half} {f : IoFuture} (hf : s.futures h = some f)
    (hs : s.drop h f = some s') :
    SeatStep s.bridge.cn.closed (s.bridge.cn.notify h) (s.futures h)
      (s'.bridge.cn.notify h) (s'.futures h) := by
  have hgone : ∀ t : StreamIo κ, t.bridge.cn = s.bridge.cn → ¬ f.Waits →
      t.futures = Function.update s.futures h none →
      SeatStep s.bridge.cn.closed (s.bridge.cn.notify h) (s.futures h)
        (t.bridge.cn.notify h) (t.futures h) := by
    intro t ht hw hfut
    rw [ht, hfut, Function.update_self, hf]
    exact .move _ (by simpa using hw) (by simp) (by simp)
  unfold drop at hs
  split at hs
  case h_3 hp =>
    cases hs
    simp only [setCn_cn, ConnNotify.modifyNotify_notify, Function.update_self, hf]
    exact .cancel _ hp
  case h_4 => simp at hs
  case h_1 hp | h_2 hp =>
    cases hs
    exact hgone _ rfl (by simp [IoFuture.Waits, hp]) rfl

theorem drop_other {s s' : StreamIo κ} {h g : Half} {f : IoFuture} (hne : g ≠ h)
    (hs : s.drop h f = some s') :
    s'.futures g = s.futures g ∧ s'.bridge.cn.notify g = s.bridge.cn.notify g := by
  unfold drop at hs
  split at hs
  case h_3 =>
    cases hs
    exact ⟨by simp [hne], ConnNotify.modifyNotify_notify_ne _ _ hne⟩
  case h_4 => simp at hs
  case h_1 | h_2 =>
    cases hs
    exact ⟨by simp [hne], rfl⟩

theorem seat_bridge {b b' : Bridge κ (Half × Nat)} {e : BridgeEvent κ} (hb : b.step e = some b')
    (h : Half) (f : Option IoFuture) :
    SeatStep b.cn.closed (b.cn.notify h) f (b'.cn.notify h) f := by
  obtain ⟨_, hcn | ⟨op, _, hcn⟩⟩ := Bridge.step_cn hb
  · rw [hcn]
    exact .keep _ f
  · rw [hcn, SharedOp.exec_notify]
    split
    · exact .touch _ f
    · split
      · exact .wake _ f
      · exact .keep _ f

theorem deliver_bridge (s : StreamIo κ) (x : Option ((Half × Nat) × Reply)) :
    (s.deliver x).bridge = s.bridge := by
  unfold deliver
  split
  · split
    · split <;> rfl
    · rfl
  · rfl

theorem recordMoved_frame (s : StreamIo κ) (T : Tquic κ) (conn : Option κ)
    (cmd : ConnCommand (Half × Nat)) :
    (s.recordMoved T conn cmd).bridge = s.bridge ∧
      (s.recordMoved T conn cmd).futures = s.futures := by
  unfold recordMoved
  split <;> exact ⟨rfl, rfl⟩

theorem deliver_futures (s : StreamIo κ) (x : Option ((Half × Nat) × Reply)) (h : Half) :
    (s.deliver x).futures h = s.futures h ∨
      ∃ f r, s.futures h = some f ∧ f.point = .reply none ∧ x = some ((h, f.serial), r) ∧
        (s.deliver x).futures h = some { f with point := .reply (some r) } := by
  unfold deliver
  split
  · rename_i g serial r
    split
    · rename_i serial' buf hg
      by_cases hserial : serial' = serial
      · subst hserial
        by_cases hh : h = g
        · subst hh
          exact Or.inr ⟨_, r, hg, rfl, rfl, by simp [goto]⟩
        · exact Or.inl (by simp [goto, hh])
      · exact Or.inl (by simp [hserial])
    · exact Or.inl rfl
  · exact Or.inl rfl

theorem step_bridge {T : Tquic κ} {s s' : StreamIo κ} {e : BridgeEvent κ}
    (hs : s.step T (.bridge e) = some s') :
    ∃ b, s.bridge.step e = some b ∧ s' = { s with bridge := b } := by
  simp only [step] at hs
  split at hs
  · rename_i b hb
    exact ⟨b, hb, (Option.some.inj hs).symm⟩
  · simp at hs

theorem step_call {T : Tquic κ} {s s' : StreamIo κ} {h : Half} {buf : Bytes}
    (hs : s.step T (.call h buf) = some s') :
    s.futures h = none ∧
      s' = { s with
        futures := Function.update s.futures h (some ⟨s.next, buf, .begin⟩)
        next := s.next + 1 } := by
  simp only [step] at hs
  split at hs
  · rename_i hnone
    exact ⟨hnone, (Option.some.inj hs).symm⟩
  · simp at hs

theorem step_poll {T : Tquic κ} {s s' : StreamIo κ} {h : Half}
    (hs : s.step T (.poll h) = some s') : ∃ f, s.futures h = some f ∧ s.poll h f = some s' := by
  simp only [step] at hs
  split at hs
  · rename_i f hf
    exact ⟨f, hf, hs⟩
  · simp at hs

theorem step_drop {T : Tquic κ} {s s' : StreamIo κ} {h : Half}
    (hs : s.step T (.drop h) = some s') : ∃ f, s.futures h = some f ∧ s.drop h f = some s' := by
  simp only [step] at hs
  split at hs
  · rename_i f hf
    exact ⟨f, hf, hs⟩
  · simp at hs

theorem step_process {T : Tquic κ} {s s' : StreamIo κ} (hs : s.step T .process = some s') :
    ∃ cmd b reply, s.bridge.process T = some (cmd, b, reply) ∧
      s' = ({ s with bridge := b }.recordMoved T s.bridge.conn cmd).deliver reply := by
  simp only [step] at hs
  split at hs
  · rename_i cmd b reply hp
    exact ⟨cmd, b, reply, hp, (Option.some.inj hs).symm⟩
  · simp at hs

theorem seat_process {T : Tquic κ} {s s' : StreamIo κ} (hs : s.step T .process = some s')
    (h : Half) :
    s'.bridge.cn = s.bridge.cn ∧ (s'.futures h = s.futures h ∨
      ∃ f r, s.futures h = some f ∧ f.point = .reply none ∧
        s'.futures h = some { f with point := .reply (some r) }) := by
  obtain ⟨cmd, b, reply, hp, rfl⟩ := step_process hs
  obtain ⟨_, _, hcn, _, _⟩ := Bridge.process_some hp
  have hframe := recordMoved_frame { s with bridge := b } T s.bridge.conn cmd
  refine ⟨by rw [deliver_bridge, hframe.1, hcn], ?_⟩
  have hd := deliver_futures ({ s with bridge := b }.recordMoved T s.bridge.conn cmd) reply h
  rw [hframe.2] at hd
  rcases hd with hd | ⟨f, r, hf, hpoint, _, hd⟩
  · exact Or.inl hd
  · exact Or.inr ⟨f, r, hf, hpoint, hd⟩

theorem seat_step {T : Tquic κ} {s s' : StreamIo κ} {e : IoEvent κ} (hs : s.step T e = some s')
    (he : e ≠ .process) (g : Half) :
    SeatStep s.bridge.cn.closed (s.bridge.cn.notify g) (s.futures g)
      (s'.bridge.cn.notify g) (s'.futures g) := by
  cases e with
  | process => exact absurd rfl he
  | bridge e =>
    obtain ⟨b, hb, rfl⟩ := step_bridge hs
    exact seat_bridge hb g _
  | call h buf =>
    obtain ⟨hnone, rfl⟩ := step_call hs
    by_cases hg : g = h
    · subst hg
      simp only [Function.update_self, hnone]
      exact .move _ (by simp) (by simp [IoFuture.Waits]) (by simp [IoFuture.Blocked])
    · simp only [ne_eq, hg, not_false_eq_true, Function.update_of_ne]
      exact .keep _ _
  | poll h =>
    obtain ⟨f, hf, hs⟩ := step_poll hs
    by_cases hg : g = h
    · subst hg
      exact seat_poll hf hs
    · obtain ⟨hfut, hn⟩ := poll_other hg hs
      rw [hfut, hn]
      exact .keep _ _
  | drop h =>
    obtain ⟨f, hf, hs⟩ := step_drop hs
    by_cases hg : g = h
    · subst hg
      exact seat_drop hf hs
    · obtain ⟨hfut, hn⟩ := drop_other hg hs
      rw [hfut, hn]
      exact .keep _ _

end StreamIo

/-! ## The waiter of a half -/

/-- How the `Notify` and the future of a half fit together. -/
def Seat (n : Option (Notify Nat)) : Option IoFuture → Prop
  | none => ∀ m ∈ n, m.Idle
  | some f =>
    match f.point with
    | .parked => ∃ m ∈ n, m.Asleep f.serial ∨ m.Awake f.serial
    | .notified => ∃ m ∈ n, m.Idle
    | _ => ∀ m ∈ n, m.Idle

theorem seat_of_not_waits {n : Option (Notify Nat)} {f : Option IoFuture}
    (hf : ∀ g ∈ f, ¬ g.Waits) : Seat n f ↔ ∀ m ∈ n, m.Idle := by
  rcases f with _ | ⟨serial, buf, point⟩
  · exact Iff.rfl
  · cases point <;> simp_all [Seat, IoFuture.Waits]

theorem seat_entry {n : Option (Notify Nat)} {f : IoFuture} (hf : f.point = .entry) :
    Seat n (some f) ↔ ∀ m ∈ n, m.Idle := by
  simp [Seat, hf]

theorem seat_notified {n : Option (Notify Nat)} {f : IoFuture} (hf : f.point = .notified) :
    Seat n (some f) ↔ ∃ m ∈ n, m.Idle := by
  simp [Seat, hf]

theorem seat_parked {n : Option (Notify Nat)} {f : IoFuture} (hf : f.point = .parked) :
    Seat n (some f) ↔ ∃ m ∈ n, m.Asleep f.serial ∨ m.Awake f.serial := by
  simp [Seat, hf]

/-- A `Notify` may change under its half as long as its waiter stays. -/
theorem Seat.mono {n n' : Option (Notify Nat)} {f : Option IoFuture} (h : Seat n f)
    (hsome : n.isSome → n'.isSome) (hidle : (∀ m ∈ n, m.Idle) → ∀ m ∈ n', m.Idle)
    (hheld : ∀ w, (∃ m ∈ n, m.Asleep w ∨ m.Awake w) → ∃ m ∈ n', m.Asleep w ∨ m.Awake w) :
    Seat n' f := by
  by_cases hw : ∀ g ∈ f, ¬ g.Waits
  · exact (seat_of_not_waits hw).mpr (hidle ((seat_of_not_waits hw).mp h))
  · rcases f with _ | f
    · simp at hw
    · rcases hp : f.point with _ | _ | _ | _ | _ | _ | _ | _
      case entry => exact (seat_entry hp).mpr (hidle ((seat_entry hp).mp h))
      case notified =>
        obtain ⟨m, hm, hidle'⟩ := (seat_notified hp).mp h
        obtain ⟨m', hm'⟩ := Option.isSome_iff_exists.mp (hsome (by simp [Option.mem_def.mp hm]))
        refine (seat_notified hp).mpr ⟨m', hm', hidle ?_ m' hm'⟩
        intro m₁ hm₁
        exact Option.mem_unique hm hm₁ ▸ hidle'
      case parked => exact (seat_parked hp).mpr (hheld _ ((seat_parked hp).mp h))
      all_goals simp [IoFuture.Waits, hp] at hw

theorem SeatStep.seat {closed : Option ConnectionError} {n n' : Option (Notify Nat)}
    {f f' : Option IoFuture} (h : SeatStep closed n f n' f') (hs : Seat n f) : Seat n' f' := by
  cases h with
  | keep => exact hs
  | touch =>
    rcases n with _ | m
    · exact hs.mono (by simp) (by simp) (by simp)
    · exact hs
  | wake =>
    rcases n with _ | m
    · exact hs
    · refine hs.mono (by simp) ?_ ?_
      · intro hidle m' hm'
        obtain rfl : m.notifyOne = m' := by simpa using hm'
        exact (hidle m rfl).notifyOne.1
      · rintro w ⟨m', hm', hheld⟩
        obtain rfl : m = m' := by simpa using hm'
        exact ⟨_, rfl, Or.inr (hheld.elim Notify.Asleep.notifyOne Notify.Awake.notifyOne)⟩
  | move _ hf hf' =>
    exact (seat_of_not_waits hf').mpr ((seat_of_not_waits hf).mp hs)
  | enter _ hp _ => exact (seat_entry rfl).mpr (by simpa [Seat, hp] using hs)
  | @register _ f hp =>
    rw [seat_entry hp] at hs
    refine (seat_notified rfl).mpr ⟨_, rfl, ?_⟩
    rcases n with _ | m
    · exact Notify.idle_new
    · exact hs m rfl
  | @poll m f hp =>
    have hidle : m.Idle → Seat (some (m.poll f.serial).2)
        (some { f with point := if (m.poll f.serial).1 then .recheck else .parked }) := by
      intro hm
      cases hpermit : m.permit with
      | true =>
        obtain ⟨hready, hstill⟩ := hm.poll_permit hpermit f.serial
        simpa [Seat, hready] using hstill
      | false =>
        obtain ⟨hready, hasleep⟩ := hm.poll_asleep hpermit f.serial
        simpa [Seat, hready] using Or.inl hasleep
    rcases hp with hp | hp
    · obtain ⟨m', hm', hs⟩ := (seat_notified hp).mp hs
      obtain rfl : m = m' := by simpa using hm'
      exact hidle hs
    · obtain ⟨m', hm', hs⟩ := (seat_parked hp).mp hs
      obtain rfl : m = m' := by simpa using hm'
      rcases hs with hs | hs
      · simpa [Seat, hs.poll] using Or.inl hs
      · obtain ⟨hready, hstill⟩ := hs.poll
        simpa [Seat, hready] using hstill
  | @cancel _ f hp =>
    obtain ⟨m, hm, hheld⟩ := (seat_parked hp).mp hs
    intro m' hm'
    obtain rfl := Option.mem_def.mp hm
    obtain rfl : m.cancel f.serial = m' := by simpa using hm'
    exact hheld.elim Notify.Asleep.cancel fun hawake => hawake.cancel.1

theorem SeatStep.isSome {closed : Option ConnectionError} {n n' : Option (Notify Nat)}
    {f f' : Option IoFuture} (h : SeatStep closed n f n' f') (hn : n.isSome) : n'.isSome := by
  cases h <;> simp_all

namespace StreamIo

/-- Every half of the connection is in order. -/
def Seated (s : StreamIo κ) : Prop :=
  ∀ h, Seat (s.bridge.cn.notify h) (s.futures h)

theorem seated_init (connId : Nat) (conn : κ) (remoteAddr : SocketAddr) (isServer : Bool) :
    (init connId conn remoteAddr isServer).Seated := by
  intro h m hm
  simp [init] at hm

theorem seated_step {T : Tquic κ} {s s' : StreamIo κ} {e : IoEvent κ} (hs : s.Seated)
    (h : s.step T e = some s') : s'.Seated := by
  intro g
  cases e with
  | process =>
    obtain ⟨hcn, hfut | ⟨f, r, hf, hp, hfut⟩⟩ := seat_process h g
    · rw [hcn, hfut]
      exact hs g
    · rw [hcn, hfut]
      refine (seat_of_not_waits (by simp [IoFuture.Waits])).mpr ?_
      exact (seat_of_not_waits (by simp [IoFuture.Waits, hf, hp])).mp (hs g)
  | bridge e => exact (seat_step h (by simp) g).seat (hs g)
  | call g' buf => exact (seat_step h (by simp) g).seat (hs g)
  | poll g' => exact (seat_step h (by simp) g).seat (hs g)
  | drop g' => exact (seat_step h (by simp) g).seat (hs g)

theorem seated_reach {T : Tquic κ} {guard : StreamIo κ → IoEvent κ → Prop} {s t : StreamIo κ}
    (h : Reach (step T) guard s t) (hs : s.Seated) : t.Seated :=
  h.invariant (fun _ _ _ hI _ hstep => seated_step hI hstep) hs

end StreamIo

end TokioTquic
