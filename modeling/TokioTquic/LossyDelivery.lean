import TokioTquic.Cancellation

/-!
# Two endpoints and the bytes between them

Futures may be dropped at any time. Bytes are lost then, but what completed calls
report keeps its order: it is a subsequence of what the engine moved for the half.
Two endpoints whose transport hands out only what the other side accepted pass
this on from one end of a stream to the other.
-/

namespace TokioTquic
open Async
set_option autoImplicit false

universe u
variable {κ : Type u}

namespace StreamIo

/-- Reported bytes, and behind them those on their way, come from the engine in order. -/
def InSequence (s : StreamIo κ) : Prop :=
  ∀ h, (s.callerBytes h ++ s.inflight h).Sublist (s.engineBytes h)

theorem InSequence.caller {s : StreamIo κ} (hs : s.InSequence) (h : Half) :
    (s.callerBytes h).Sublist (s.engineBytes h) :=
  (List.sublist_append_left _ _).trans (hs h)

theorem Queued.inflight_nil {s : StreamIo κ} (hq : s.Queued) {h : Half} {buf : Bytes} {n : Nat}
    (hmem : h.request buf (h, n) ∈ s.bridge.queue) {f : IoFuture} (hf : s.futures h = some f)
    (hserial : f.serial = n) : s.inflight h = [] := by
  obtain ⟨g, buf', m, heq, _, hlive⟩ := hq.request _ hmem
  have hrespond := congrArg ConnCommand.respond heq
  rw [Half.request_respond, Half.request_respond] at hrespond
  obtain ⟨rfl, rfl⟩ : h = g ∧ n = m := by simpa using hrespond
  rw [inflight_some hf, IoFuture.inflight, (hlive f hf hserial).1]

theorem process_bytes {T : Tquic κ} {s s' : StreamIo κ} (hq : s.Queued)
    (hstep : s.step T .process = some s') :
    s'.callerBytes = s.callerBytes ∧ ∃ g moved,
      s'.engineBytes = Function.update s.engineBytes g (s.engineBytes g ++ moved) ∧
      (∀ h, h ≠ g → s'.inflight h = s.inflight h) ∧
      (s'.inflight g = s.inflight g ∨ s.inflight g = [] ∧ s'.inflight g = moved) := by
  obtain ⟨cmd, b, reply, hp, rfl⟩ := step_process hstep
  obtain ⟨_, hqueue, _, _, hproc⟩ := Bridge.process_some hp
  have hhead : cmd ∈ s.bridge.queue := by simp [hqueue]
  obtain ⟨g, buf, n, rfl, _, hlive⟩ := hq.request cmd hhead
  obtain ⟨conn', r, hr⟩ := request_replies T s.bridge.conn g buf (g, n)
  obtain ⟨_, rfl⟩ : _ ∧ some ((g, n), r) = reply := by simpa [hr] using hproc
  rw [recordMoved_request]
  refine ⟨(deliver_bytes _ _).2, g, (g.request buf (g, n)).moved T s.bridge.conn,
    (deliver_bytes _ _).1, ?_, ?_⟩
  · intro h hh
    apply inflight_congr
    rcases deliver_futures _ (some ((g, n), r)) h with hsame | ⟨f, r', _, _, hreply, _⟩
    · exact hsame
    · exact absurd (by simpa [eq_comm] using congrArg (·.map fun x => x.1.1) hreply) hh
  · rcases deliver_futures _ (some ((g, n), r)) g with hsame | ⟨f, r', hf, hpoint, hreply, hf'⟩
    · exact Or.inl (inflight_congr hsame)
    · obtain ⟨rfl, rfl⟩ : n = f.serial ∧ r = r' := by simpa using hreply
      obtain rfl : f.buf = buf := (hlive f hf rfl).2
      refine Or.inr ⟨hq.inflight_nil hhead hf rfl, ?_⟩
      rw [inflight_some hf', ← request_moved hr]
      rfl

theorem inSequence_step {T : Tquic κ} {s s' : StreamIo κ} {e : IoEvent κ} (hs : s.InSequence)
    (hq : s.Queued) (hstep : s.step T e = some s') : s'.InSequence := by
  cases e with
  | process =>
    obtain ⟨hcaller, g, moved, hengine, hothers, hself⟩ := process_bytes hq hstep
    intro h
    rw [hcaller, hengine]
    by_cases hh : h = g
    · subst hh
      rw [Function.update_self]
      rcases hself with hsame | ⟨hbefore, hafter⟩
      · rw [hsame]
        exact (hs h).trans (List.sublist_append_left _ _)
      · rw [hafter]
        have hcaller' := hs h
        rw [hbefore, List.append_nil] at hcaller'
        exact hcaller'.append (List.Sublist.refl moved)
    · rw [Function.update_of_ne hh, hothers h hh]
      exact hs h
  | bridge e =>
    obtain ⟨b, _, rfl⟩ := step_bridge hstep
    exact hs
  | call g buf =>
    obtain ⟨hnone, rfl⟩ := step_call hstep
    intro h
    have hinflight : ∀ t : StreamIo κ, t.futures = Function.update s.futures g
        (some ⟨s.next, buf, .begin⟩) → t.inflight h = s.inflight h := by
      intro t ht
      by_cases hh : h = g
      · subst hh
        simp [inflight, ht, hnone, IoFuture.inflight]
      · simp [inflight, ht, hh]
    rw [hinflight _ rfl]
    exact hs h
  | poll g =>
    obtain ⟨f, hf, hpoll⟩ := step_poll hstep
    obtain ⟨hengine, hothers, hself⟩ := poll_bytes hf hpoll
    intro h
    by_cases hh : h = g
    · subst hh
      rw [hengine, hself]
      exact hs h
    · rw [hengine, hothers h hh, inflight_congr (poll_other hh hpoll).1]
      exact hs h
  | drop g =>
    obtain ⟨f, hf, hdrop⟩ := step_drop hstep
    obtain ⟨hengine, hcaller⟩ := drop_bytes hdrop
    intro h
    rw [hengine, hcaller]
    by_cases hh : h = g
    · -- the bytes on their way to a dropped future are lost
      subst hh
      rw [inflight_none (drop_future hdrop).2.2, List.append_nil]
      exact hs.caller h
    · rw [inflight_congr (drop_other hh hdrop).1]
      exact hs h

theorem inSequence_init (connId : Nat) (conn : κ) (remoteAddr : SocketAddr) (isServer : Bool) :
    (init connId conn remoteAddr isServer).InSequence := by
  intro h
  simp [init, inflight]

theorem step_engineBytes_eq {T : Tquic κ} {s s' : StreamIo κ} {e : IoEvent κ}
    (hstep : s.step T e = some s') (he : e ≠ .process) : s'.engineBytes = s.engineBytes := by
  cases e with
  | process => exact absurd rfl he
  | bridge e =>
    obtain ⟨b, _, rfl⟩ := step_bridge hstep
    rfl
  | call g buf =>
    obtain ⟨_, rfl⟩ := step_call hstep
    rfl
  | poll g =>
    obtain ⟨f, hf, hpoll⟩ := step_poll hstep
    exact (poll_bytes hf hpoll).1
  | drop g =>
    obtain ⟨f, _, hdrop⟩ := step_drop hstep
    exact (drop_bytes hdrop).1

theorem step_engineBytes {T : Tquic κ} {s s' : StreamIo κ} {e : IoEvent κ} (hq : s.Queued)
    (hstep : s.step T e = some s') (h : Half) : s.engineBytes h <+: s'.engineBytes h := by
  cases e with
  | process =>
    obtain ⟨_, g, moved, hengine, _⟩ := process_bytes hq hstep
    rw [hengine]
    by_cases hh : h = g
    · subst hh
      rw [Function.update_self]
      exact List.prefix_append _ _
    · have hsame := Function.update_of_ne hh (s.engineBytes g ++ moved) s.engineBytes
      exact ⟨[], by rw [hsame, List.append_nil]⟩
  | bridge _ | call _ _ | poll _ | drop _ =>
    have hsame := step_engineBytes_eq hstep nofun
    exact ⟨[], by rw [hsame, List.append_nil]⟩

/-- A future is dropped only while it waits for no reply. -/
def DropsSettled (s : StreamIo κ) : IoEvent κ → Prop
  | .drop h => ∀ f ∈ s.futures h, ∀ msg, f.point ≠ .reply msg
  | _ => True

/-- The future that sent a command is still there. -/
def Attended (s : StreamIo κ) : Prop := ∀ cmd ∈ s.bridge.queue, s.Owned cmd

theorem attended_init (connId : Nat) (conn : κ) (remoteAddr : SocketAddr) (isServer : Bool) :
    (init connId conn remoteAddr isServer).Attended := by
  intro cmd hcmd
  simp [init] at hcmd

theorem Attended.update {s s' : StreamIo κ} (hs : s.Attended) {g : Half} {more : List _}
    (hqueue : s'.bridge.queue = s.bridge.queue ++ more) (hmore : ∀ cmd ∈ more, s'.Owned cmd)
    (hothers : ∀ h, h ≠ g → s'.futures h = s.futures h)
    (habsent : ∀ f ∈ s.futures g, some (g, f.serial) ∉ s.bridge.queue.map ConnCommand.respond) :
    s'.Attended := by
  intro cmd hcmd
  rw [hqueue] at hcmd
  rcases List.mem_append.mp hcmd with hcmd | hcmd
  · obtain ⟨h, n, hrespond, f, hf, hserial⟩ := hs cmd hcmd
    refine ⟨h, n, hrespond, f, ?_, hserial⟩
    by_cases hh : h = g
    · subst hh
      subst hserial
      exact absurd (List.mem_map.mpr ⟨cmd, hcmd, hrespond⟩) (habsent f hf)
    · rw [hothers h hh]
      exact hf
  · exact hmore cmd hcmd

theorem attended_step {T : Tquic κ} {s s' : StreamIo κ} {e : IoEvent κ} (hs : s.Attended)
    (hq : s.Queued) (hsettled : s.DropsSettled e) (hstep : s.step T e = some s') :
    s'.Attended := by
  cases e with
  | process =>
    obtain ⟨cmd, b, reply, hp, rfl, -, hfutures⟩ := process_futures hstep
    obtain ⟨-, hqueue, -⟩ := Bridge.process_some hp
    intro cmd' hcmd'
    obtain ⟨h, n, hrespond, f, hf, hserial⟩ := hs cmd' (by
      rw [hqueue]
      exact List.mem_cons_of_mem _ hcmd')
    rcases hfutures h with hsame | ⟨g, r, hg, -, -, hg'⟩
    · exact ⟨h, n, hrespond, f, hsame ▸ hf, hserial⟩
    · obtain rfl : f = g := Option.some.inj (hf.symm.trans hg)
      exact ⟨h, n, hrespond, _, hg', hserial⟩
  | bridge e =>
    obtain ⟨b, hb, rfl⟩ := step_bridge hstep
    intro cmd hcmd
    rw [(Bridge.step_cn hb).1] at hcmd
    exact hs cmd hcmd
  | call g buf =>
    obtain ⟨hnone, rfl⟩ := step_call hstep
    refine hs.update (List.append_nil _).symm nofun (fun h hh => Function.update_of_ne hh _ _) ?_
    rw [hnone]
    exact fun f hf => (Option.not_mem_none f hf).elim
  | poll g =>
    obtain ⟨f, hf, hpoll⟩ := step_poll hstep
    obtain ⟨-, hpoint, hcases⟩ := poll_future hpoll
    have hothers : ∀ h, h ≠ g → s'.futures h = s.futures h := fun h hh => (poll_other hh hpoll).1
    have habsent : ∀ f' ∈ s.futures g,
        some (g, f'.serial) ∉ s.bridge.queue.map ConnCommand.respond := by
      intro f' hf'
      obtain rfl : f = f' := Option.some.inj (hf.symm.trans hf')
      exact hq.absent hf hpoint
    rcases hcases with ⟨hqueue, -⟩ | ⟨-, hqueue, hsome⟩
    · exact hs.update (hqueue.trans (List.append_nil _).symm) nofun hothers habsent
    · apply hs.update hqueue _ hothers habsent
      intro cmd hcmd
      rw [List.mem_singleton.mp hcmd]
      exact ⟨g, f.serial, Half.request_respond .., _, hsome, rfl⟩
  | drop g =>
    obtain ⟨f, hf, hdrop⟩ := step_drop hstep
    refine hs.update ((drop_future hdrop).2.1.trans (List.append_nil _).symm) nofun
      (fun h hh => (drop_other hh hdrop).1) ?_
    intro f' hf'
    exact hq.absent hf' (hsettled f' hf' none)

/-- Where every command is attended, settled drops lose no bytes. -/
theorem Attended.keepsBytes {T : Tquic κ} {s : StreamIo κ} {e : IoEvent κ} (hs : s.Attended)
    (hsettled : s.DropsSettled e) : s.KeepsBytes T e := by
  cases e with
  | process =>
    intro cmd hcmd
    exact Or.inl (hs cmd (List.mem_of_mem_head? hcmd))
  | drop h =>
    cases hf : s.futures h with
    | none => exact inflight_none hf
    | some f =>
      have hpoint := hsettled f hf
      rw [KeepsBytes, inflight_some hf, IoFuture.inflight]
      split
      · rename_i r hr
        exact absurd hr (hpoint (some r))
      · rfl
  | _ => trivial

end StreamIo

/-! ## Both ends of a connection -/

structure Link (κ : Type u) where
  left : StreamIo κ
  right : StreamIo κ

inductive LinkEvent (κ : Type u) where
  | left (e : IoEvent κ)
  | right (e : IoEvent κ)

namespace Link

def step (T : Tquic κ) (s : Link κ) : LinkEvent κ → Option (Link κ)
  | .left e => (s.left.step T e).map fun left => { s with left := left }
  | .right e => (s.right.step T e).map fun right => { s with right := right }

/-- The bytes that the engine of `reader` handed out are the first ones that the engine of
`writer` accepted. -/
def Received (reader writer : StreamIo κ) : Prop :=
  ∀ streamId, reader.engineBytes (.recv streamId) <+: writer.engineBytes (.send streamId)

/-- The transport is reliable: an engine hands out what the other one accepted, in order. -/
def Carries (T : Tquic κ) (s : Link κ) : LinkEvent κ → Prop
  | .left .process => ∀ t, s.left.step T .process = some t → Received t s.right
  | .right .process => ∀ t, s.right.step T .process = some t → Received t s.left
  | _ => True

/-- On both sides no bytes are lost with a future. -/
def KeepsBytes (T : Tquic κ) (s : Link κ) : LinkEvent κ → Prop
  | .left e => s.left.KeepsBytes T e
  | .right e => s.right.KeepsBytes T e

def DropsSettled (s : Link κ) : LinkEvent κ → Prop
  | .left e => s.left.DropsSettled e
  | .right e => s.right.DropsSettled e

theorem step_left {T : Tquic κ} {s t : Link κ} {e : IoEvent κ}
    (hstep : s.step T (.left e) = some t) :
    ∃ left, s.left.step T e = some left ∧ t = { s with left := left } := by
  obtain ⟨left, hleft, ht⟩ := Option.map_eq_some_iff.mp hstep
  exact ⟨left, hleft, ht.symm⟩

theorem step_right {T : Tquic κ} {s t : Link κ} {e : IoEvent κ}
    (hstep : s.step T (.right e) = some t) :
    ∃ right, s.right.step T e = some right ∧ t = { s with right := right } := by
  obtain ⟨right, hright, ht⟩ := Option.map_eq_some_iff.mp hstep
  exact ⟨right, hright, ht.symm⟩

theorem received_reader {T : Tquic κ} {a b c : StreamIo κ} {e : IoEvent κ}
    (hr : Received a c) (hcarries : e = .process → ∀ t, a.step T .process = some t → Received t c)
    (hstep : a.step T e = some b) : Received b c := by
  by_cases he : e = .process
  · subst he
    exact hcarries rfl b hstep
  · intro streamId
    rw [StreamIo.step_engineBytes_eq hstep he]
    exact hr streamId

theorem received_writer {T : Tquic κ} {a b c : StreamIo κ} {e : IoEvent κ}
    (hr : Received c a) (hq : a.Queued) (hstep : a.step T e = some b) : Received c b := by
  intro streamId
  apply (hr streamId).trans
  exact StreamIo.step_engineBytes hq hstep (.send streamId)

/-- What every run on a reliable transport keeps. -/
structure Sound (s : Link κ) : Prop where
  left : s.left.Queued ∧ s.left.InSequence
  right : s.right.Queued ∧ s.right.InSequence
  toLeft : Received s.left s.right
  toRight : Received s.right s.left

theorem sound_step {T : Tquic κ} {s t : Link κ} {e : LinkEvent κ} (hs : s.Sound)
    (hcarries : s.Carries T e) (hstep : s.step T e = some t) : t.Sound := by
  cases e with
  | left e =>
    obtain ⟨left, hleft, rfl⟩ := step_left hstep
    have hq := StreamIo.queued_step hs.left.1 hleft
    have hin := StreamIo.inSequence_step hs.left.2 hs.left.1 hleft
    refine ⟨⟨hq, hin⟩, hs.right, ?_, received_writer hs.toRight hs.left.1 hleft⟩
    apply received_reader hs.toLeft _ hleft
    intro he
    subst he
    exact hcarries
  | right e =>
    obtain ⟨right, hright, rfl⟩ := step_right hstep
    have hq := StreamIo.queued_step hs.right.1 hright
    have hin := StreamIo.inSequence_step hs.right.2 hs.right.1 hright
    refine ⟨hs.left, ⟨hq, hin⟩, received_writer hs.toLeft hs.right.1 hright, ?_⟩
    apply received_reader hs.toRight _ hright
    intro he
    subst he
    exact hcarries

def init (leftId rightId : Nat) (left right : κ) (leftAddr rightAddr : SocketAddr) : Link κ where
  left := StreamIo.init leftId left leftAddr false
  right := StreamIo.init rightId right rightAddr true

theorem sound_init (leftId rightId : Nat) (left right : κ) (leftAddr rightAddr : SocketAddr) :
    (init leftId rightId left right leftAddr rightAddr).Sound where
  left := ⟨StreamIo.queued_init .., StreamIo.inSequence_init leftId left leftAddr false⟩
  right := ⟨StreamIo.queued_init .., StreamIo.inSequence_init rightId right rightAddr true⟩
  toLeft := fun _ => List.nil_prefix
  toRight := fun _ => List.nil_prefix

theorem Sound.toLeft_sublist {s : Link κ} (hs : s.Sound) (streamId : Nat) :
    (s.left.callerBytes (.recv streamId)).Sublist (s.right.engineBytes (.send streamId)) :=
  (hs.left.2.caller _).trans (hs.toLeft streamId).sublist

theorem Sound.toRight_sublist {s : Link κ} (hs : s.Sound) (streamId : Nat) :
    (s.right.callerBytes (.recv streamId)).Sublist (s.left.engineBytes (.send streamId)) :=
  (hs.right.2.caller _).trans (hs.toRight streamId).sublist

/-- Whatever futures are dropped on either side, the bytes reported at one end of a stream
were accepted at the other end, in this order. -/
theorem delivered_in_order (T : Tquic κ) (leftId rightId : Nat) (left right : κ)
    (leftAddr rightAddr : SocketAddr) (t : Link κ)
    (ht : Reach (step T) (Carries T) (init leftId rightId left right leftAddr rightAddr) t)
    (streamId : Nat) :
    (t.left.callerBytes (.recv streamId)).Sublist (t.right.engineBytes (.send streamId)) ∧
      (t.right.callerBytes (.recv streamId)).Sublist (t.left.engineBytes (.send streamId)) := by
  have hsound := ht.invariant (fun _ _ _ hs hg hstep => sound_step hs hg hstep)
    (sound_init leftId rightId left right leftAddr rightAddr)
  exact ⟨hsound.toLeft_sublist streamId, hsound.toRight_sublist streamId⟩

theorem received_single {a b : StreamIo κ} (streamId : Nat)
    (hbehind : a.engineBytes (.recv streamId) <+: b.engineBytes (.send streamId))
    (hothers : ∀ g, g ≠ streamId → a.engineBytes (.recv g) = []) : Received a b := by
  intro g
  by_cases hg : g = streamId
  · subst hg
    exact hbehind
  · rw [hothers g hg]
    exact List.nil_prefix

/-- The right side writes two bytes; on the left a read is dropped with the first of them. -/
def lossyRun : List (LinkEvent Script) :=
  [.right (.call (.send 0) [1, 2]), .right (.poll (.send 0)), .right (.poll (.send 0)),
    .right .process, .right (.poll (.send 0)), .left (.call (.recv 0) [0]),
    .left (.poll (.recv 0)), .left (.poll (.recv 0)), .left .process, .left (.drop (.recv 0)),
    .left (.call (.recv 0) [0]), .left (.poll (.recv 0)), .left (.poll (.recv 0)),
    .left .process, .left (.poll (.recv 0))]

theorem delivered_in_order_dropped :
    ∃ t, run (step Tquic.scripted)
        (init 0 0 { reads := [.ok ([1], false), .ok ([2], false)] } { writes := [.ok 2] }
          .unspecified .unspecified) lossyRun = some t ∧
      t.left.callerBytes (.recv 0) = [2] ∧ t.right.callerBytes (.send 0) = [1, 2] ∧
      (t.left.callerBytes (.recv 0)).Sublist (t.right.engineBytes (.send 0)) := by
  obtain ⟨t, hrun, hread, hwritten, hcarries⟩ : ∃ t, run (step Tquic.scripted)
        (init 0 0 { reads := [.ok ([1], false), .ok ([2], false)] } { writes := [.ok 2] }
          .unspecified .unspecified) lossyRun = some t ∧
      t.left.callerBytes (.recv 0) = [2] ∧ t.right.callerBytes (.send 0) = [1, 2] ∧
      Along (step Tquic.scripted) (Carries Tquic.scripted)
        (init 0 0 { reads := [.ok ([1], false), .ok ([2], false)] } { writes := [.ok 2] }
          .unspecified .unspecified) lossyRun := by
    refine ⟨_, rfl, rfl, rfl, trivial, trivial, trivial, ?_, trivial, trivial, trivial, trivial,
      ?_, trivial, trivial, trivial, trivial, ?_, trivial, trivial⟩
    · intro t ht
      cases ht
      exact received_single 0 List.nil_prefix fun g hg => rfl
    · intro t ht
      cases ht
      apply received_single 0
      · exact ⟨[2], rfl⟩
      · exact fun g hg => Function.update_of_ne (by simpa using hg) _ _
    · intro t ht
      cases ht
      apply received_single 0
      · exact List.prefix_rfl
      · intro g hg
        exact (Function.update_of_ne (by simpa using hg) _ _).trans
          (Function.update_of_ne (by simpa using hg) _ _)
  exact ⟨t, hrun, hread, hwritten, (delivered_in_order Tquic.scripted 0 0 _ _ .unspecified
    .unspecified t (reach_of_along hrun hcarries) 0).1⟩

def Accounted (s : Link κ) : Prop := s.left.Accounted ∧ s.right.Accounted

theorem accounted_step {T : Tquic κ} {s t : Link κ} {e : LinkEvent κ} (hs : s.Accounted)
    (hsound : s.Sound) (hkeeps : s.KeepsBytes T e) (hstep : s.step T e = some t) :
    t.Accounted := by
  cases e with
  | left e =>
    obtain ⟨left, hleft, rfl⟩ := step_left hstep
    exact ⟨StreamIo.accounted_step hs.1 hsound.left.1 hkeeps hleft, hs.2⟩
  | right e =>
    obtain ⟨right, hright, rfl⟩ := step_right hstep
    exact ⟨hs.1, StreamIo.accounted_step hs.2 hsound.right.1 hkeeps hright⟩

/-- Where both sides account for every byte, what one end reported as read is the
beginning of what the other end reported as written, or is about to report. -/
theorem Sound.prefix_of_accounted {s : Link κ} (hs : s.Sound) (hacc : s.Accounted)
    (streamId : Nat) :
    s.left.callerBytes (.recv streamId) <+:
        s.right.callerBytes (.send streamId) ++ s.right.inflight (.send streamId) ∧
      s.right.callerBytes (.recv streamId) <+:
        s.left.callerBytes (.send streamId) ++ s.left.inflight (.send streamId) := by
  have hbehind : ∀ a b : StreamIo κ, a.Accounted → b.Accounted → Received a b →
      a.callerBytes (.recv streamId) <+:
        b.callerBytes (.send streamId) ++ b.inflight (.send streamId) := by
    intro a b ha hb hr
    rw [← hb (.send streamId)]
    apply List.IsPrefix.trans _ (hr streamId)
    rw [ha (.recv streamId)]
    exact List.prefix_append _ _
  exact ⟨hbehind _ _ hacc.1 hacc.2 hs.toLeft, hbehind _ _ hacc.2 hacc.1 hs.toRight⟩

/-- Without such losses the bytes read at one end of a stream are a prefix of the bytes
whose writes were reported at the other end, up to a write whose reply is on its way. -/
theorem delivered_undropped (T : Tquic κ) (leftId rightId : Nat) (left right : κ)
    (leftAddr rightAddr : SocketAddr) (t : Link κ)
    (ht : Reach (step T) (fun s e => s.Carries T e ∧ s.KeepsBytes T e)
      (init leftId rightId left right leftAddr rightAddr) t) (streamId : Nat) :
    t.left.callerBytes (.recv streamId) <+:
        t.right.callerBytes (.send streamId) ++ t.right.inflight (.send streamId) ∧
      t.right.callerBytes (.recv streamId) <+:
        t.left.callerBytes (.send streamId) ++ t.left.inflight (.send streamId) := by
  have hinit : (init leftId rightId left right leftAddr rightAddr).Accounted := by
    constructor <;> intro h <;> simp [init, StreamIo.init, StreamIo.inflight]
  have hinv : t.Sound ∧ t.Accounted := by
    induction ht with
    | refl => exact ⟨sound_init .., hinit⟩
    | tail _ hguard hstep ih =>
      exact ⟨sound_step ih.1 hguard.1 hstep, accounted_step ih.2 ih.1 hguard.2 hstep⟩
  exact hinv.1.prefix_of_accounted hinv.2 streamId

/-- A run that drops no future that waits for a reply loses no bytes with its futures. -/
theorem settled_keeps (T : Tquic κ) (leftId rightId : Nat) (left right : κ)
    (leftAddr rightAddr : SocketAddr) (t : Link κ)
    (ht : Reach (step T) (fun s e => s.Carries T e ∧ s.DropsSettled e)
      (init leftId rightId left right leftAddr rightAddr) t) :
    Reach (step T) (fun s e => s.Carries T e ∧ s.KeepsBytes T e)
      (init leftId rightId left right leftAddr rightAddr) t := by
  have hinit : (init leftId rightId left right leftAddr rightAddr).left.Attended ∧
      (init leftId rightId left right leftAddr rightAddr).right.Attended :=
    ⟨StreamIo.attended_init _ _ _ _, StreamIo.attended_init _ _ _ _⟩
  have hall : Reach (step T) (fun s e => s.Carries T e ∧ s.KeepsBytes T e)
        (init leftId rightId left right leftAddr rightAddr) t ∧
      t.Sound ∧ t.left.Attended ∧ t.right.Attended := by
    induction ht with
    | refl => exact ⟨.refl _, sound_init .., hinit⟩
    | @tail u v e _ hguard hstep ih =>
      obtain ⟨hreach, hsound, hleft, hright⟩ := ih
      obtain ⟨hcarries, hsettled⟩ := hguard
      have hnext := sound_step hsound hcarries hstep
      cases e with
      | left e =>
        obtain ⟨left', hl, rfl⟩ := step_left hstep
        refine ⟨hreach.tail ⟨hcarries, hleft.keepsBytes hsettled⟩ hstep, hnext, ?_, hright⟩
        exact StreamIo.attended_step hleft hsound.left.1 hsettled hl
      | right e =>
        obtain ⟨right', hr, rfl⟩ := step_right hstep
        refine ⟨hreach.tail ⟨hcarries, hright.keepsBytes hsettled⟩ hstep, hnext, hleft, ?_⟩
        exact StreamIo.attended_step hright hsound.right.1 hsettled hr
  exact hall.1

/-- The right side writes two bytes. On the left a read that finds nothing yet is dropped as it
sleeps, and the next one reports the first byte. -/
def settledRun : List (LinkEvent Script) :=
  [.right (.call (.send 0) [1, 2]), .right (.poll (.send 0)), .right (.poll (.send 0)),
    .right .process, .right (.poll (.send 0)), .left (.call (.recv 0) [0]),
    .left (.poll (.recv 0)), .left (.poll (.recv 0)), .left .process, .left (.poll (.recv 0)),
    .left (.poll (.recv 0)), .left (.poll (.recv 0)), .left (.poll (.recv 0)),
    .left (.drop (.recv 0)), .left (.call (.recv 0) [0]), .left (.poll (.recv 0)),
    .left (.poll (.recv 0)), .left .process, .left (.poll (.recv 0))]

theorem delivered_undropped_partly :
    ∃ t, run (step Tquic.scripted)
        (init 0 0 { reads := [.error .done, .ok ([1], false)] } { writes := [.ok 2] }
          .unspecified .unspecified)
        settledRun = some t ∧
      t.left.callerBytes (.recv 0) = [1] ∧
      t.left.callerBytes (.recv 0) <+:
        t.right.callerBytes (.send 0) ++ t.right.inflight (.send 0) := by
  obtain ⟨t, hrun, hread, hguard⟩ : ∃ t, run (step Tquic.scripted)
        (init 0 0 { reads := [.error .done, .ok ([1], false)] } { writes := [.ok 2] }
          .unspecified .unspecified)
        settledRun = some t ∧ t.left.callerBytes (.recv 0) = [1] ∧
      Along (step Tquic.scripted) (fun s e => s.Carries Tquic.scripted e ∧ s.DropsSettled e)
        (init 0 0 { reads := [.error .done, .ok ([1], false)] } { writes := [.ok 2] }
          .unspecified .unspecified)
        settledRun := by
    refine ⟨_, rfl, rfl, ⟨trivial, trivial⟩, ⟨trivial, trivial⟩, ⟨trivial, trivial⟩, ⟨?_, trivial⟩,
      ⟨trivial, trivial⟩, ⟨trivial, trivial⟩, ⟨trivial, trivial⟩, ⟨trivial, trivial⟩, ⟨?_, trivial⟩,
      ⟨trivial, trivial⟩, ⟨trivial, trivial⟩, ⟨trivial, trivial⟩, ⟨trivial, trivial⟩, ⟨trivial, ?_⟩,
      ⟨trivial, trivial⟩, ⟨trivial, trivial⟩, ⟨trivial, trivial⟩, ⟨?_, trivial⟩, ⟨trivial, trivial⟩,
      trivial⟩
    · intro t ht
      cases ht
      exact received_single 0 List.nil_prefix fun g hg => rfl
    · intro t ht
      cases ht
      refine received_single 0 List.nil_prefix fun g hg => ?_
      exact Function.update_of_ne (by simpa using hg) _ _
    · intro f hf msg
      cases hf
      exact nofun
    · intro t ht
      cases ht
      apply received_single 0
      · exact ⟨[2], rfl⟩
      · intro g hg
        exact (Function.update_of_ne (by simpa using hg) _ _).trans
          (Function.update_of_ne (by simpa using hg) _ _)
  have hkeeps := settled_keeps Tquic.scripted 0 0 _ _ .unspecified .unspecified t
    (reach_of_along hrun hguard)
  exact ⟨t, hrun, hread,
    (delivered_undropped Tquic.scripted 0 0 _ _ .unspecified .unspecified t hkeeps 0).1⟩

end Link

end TokioTquic
