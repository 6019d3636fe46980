import TokioTquic.Requests

/-!
# Dropped futures and the bytes they carry

The engine has moved the bytes of a request before the reply is awaited. A run
in which no future is dropped while such bytes are on their way to it accounts
for every byte.
-/

namespace TokioTquic
open Async
set_option autoImplicit false

universe u v
variable {κ : Type u} {ρ : Type v}

def Reply.bytes (buf : Bytes) : Reply → Bytes
  | .read (.ok (data, _)) => data
  | .written (.ok n) => buf.take n
  | _ => []

theorem Reply.bytes_of_empty {r : Reply} (h : r.empty) (buf : Bytes) : r.bytes buf = [] := by
  rcases r with _ | _ | (_ | n) | (_ | ⟨data, fin⟩) | _ | _ | _ | _ <;>
    simp_all [Reply.empty, Reply.bytes]

def IoFuture.inflight (f : IoFuture) : Bytes :=
  match f.point with
  | .reply (some r) => r.bytes f.buf
  | _ => []

theorem request_moved {T : Tquic κ} {conn conn' : Option κ} {h : Half} {buf : Bytes}
    {a a' : ρ} {r : Reply}
    (hproc : processConnCommand T conn (h.request buf a) = (conn', some (a', r))) :
    r.bytes buf = (h.request buf a).moved T conn := by
  cases h with
  | recv streamId =>
    simp only [Half.request, processConnCommand, Prod.mk.injEq, Option.some.injEq] at hproc
    obtain ⟨_, _, rfl⟩ := hproc
    cases conn with
    | none => rfl
    | some c =>
      simp only [onEngine, ConnCommand.moved, Half.request, Option.map_some]
      rcases (T.streamRead c streamId buf.length).1 with e | ⟨data, fin⟩
      · cases e <;> rfl
      · rfl
  | send streamId =>
    simp only [Half.request, processConnCommand, Prod.mk.injEq, Option.some.injEq] at hproc
    obtain ⟨_, _, rfl⟩ := hproc
    cases conn with
    | none => rfl
    | some c =>
      simp only [onEngine, ConnCommand.moved, Half.request, Option.map_some]
      rcases (T.streamWrite c streamId buf false).1 with e | n
      · cases e <;> rfl
      · rfl

theorem request_replies (T : Tquic κ) (conn : Option κ) (h : Half) (buf : Bytes) (a : ρ) :
    ∃ conn' r, processConnCommand T conn (h.request buf a) = (conn', some (a, r)) := by
  cases h <;> exact ⟨_, _, rfl⟩

namespace StreamIo

def inflight (s : StreamIo κ) (h : Half) : Bytes :=
  match s.futures h with
  | some f => f.inflight
  | none => []

/-- Every byte the engine moved was reported, or is on its way to a live future. -/
def Accounted (s : StreamIo κ) : Prop :=
  ∀ h, s.engineBytes h = s.callerBytes h ++ s.inflight h

theorem inflight_some {s : StreamIo κ} {h : Half} {f : IoFuture} (hf : s.futures h = some f) :
    s.inflight h = f.inflight := by
  simp [inflight, hf]

theorem inflight_none {s : StreamIo κ} {h : Half} (hf : s.futures h = none) :
    s.inflight h = [] := by
  simp [inflight, hf]

theorem inflight_congr {s t : StreamIo κ} {h : Half} (hf : t.futures h = s.futures h) :
    t.inflight h = s.inflight h := by
  simp [inflight, hf]

theorem onReply_bytes {s s' : StreamIo κ} {h : Half} {buf : Bytes} {r : Reply} {c : Completion}
    (hr : s.onReply h buf r = some (s', .ret c)) : c.bytes = r.bytes buf := by
  unfold onReply at hr
  split at hr
  · rename_i streamId r
    simp only [Option.some.injEq, Prod.mk.injEq] at hr
    rcases r with e | ⟨data, fin⟩
    · obtain ⟨_, hr⟩ := hr
      simp only [RecvStream.onReply, Pass.map, Pass.ret.injEq] at hr
      subst hr
      rfl
    · obtain ⟨_, hr⟩ := hr
      cases data <;> cases fin <;> simp [RecvStream.onReply, Pass.map] at hr <;> subst hr <;>
        simp [Completion.bytes, Reply.bytes]
  · rename_i streamId r
    simp only [Option.some.injEq, Prod.mk.injEq] at hr
    rcases r with e | n
    · obtain ⟨_, hr⟩ := hr
      simp only [SendStream.onReply, Pass.map, Pass.ret.injEq] at hr
      subst hr
      rfl
    · cases n with
      | zero => simp [SendStream.onReply, Pass.map] at hr
      | succ n =>
        obtain ⟨_, hr⟩ := hr
        simp only [SendStream.onReply, Pass.map, Pass.ret.injEq] at hr
        subst hr
        rfl
  · simp at hr

theorem alreadyClosed_bytes {s : StreamIo κ} {h : Half} {buf : Bytes} {c : Completion}
    (hc : s.alreadyClosed h buf = some c) : c.bytes = [] := by
  unfold alreadyClosed at hc
  split at hc <;> split at hc <;> simp at hc
  · rw [← hc]
    rfl
  · rw [← hc]
    rfl

theorem poll_bytes {s s' : StreamIo κ} {h : Half} {f : IoFuture} (hf : s.futures h = some f)
    (hs : s.poll h f = some s') :
    s'.engineBytes = s.engineBytes ∧ (∀ g, g ≠ h → s'.callerBytes g = s.callerBytes g) ∧
      s'.callerBytes h ++ s'.inflight h = s.callerBytes h ++ s.inflight h := by
  have hdone : ∀ (t : StreamIo κ) (c : Completion), t.engineBytes = s.engineBytes →
      t.callerBytes = s.callerBytes → c.bytes = f.inflight →
      (t.complete h c).engineBytes = s.engineBytes ∧
      (∀ g, g ≠ h → (t.complete h c).callerBytes g = s.callerBytes g) ∧
      (t.complete h c).callerBytes h ++ (t.complete h c).inflight h =
        s.callerBytes h ++ s.inflight h := by
    intro t c hengine hcaller hc
    refine ⟨hengine, fun g hg => by simp [complete, hg, hcaller], ?_⟩
    rw [inflight_none (complete_self t h c), inflight_some hf, ← hc, List.append_nil]
    simp [complete, hcaller]
  have hgoto : ∀ (t : StreamIo κ) (p : Point), t.engineBytes = s.engineBytes →
      t.callerBytes = s.callerBytes → IoFuture.inflight { f with point := p } = f.inflight →
      (t.goto h f p).engineBytes = s.engineBytes ∧
      (∀ g, g ≠ h → (t.goto h f p).callerBytes g = s.callerBytes g) ∧
      (t.goto h f p).callerBytes h ++ (t.goto h f p).inflight h =
        s.callerBytes h ++ s.inflight h := by
    intro t p hengine hcaller hp
    refine ⟨hengine, fun g _ => congrFun hcaller g, ?_⟩
    rw [inflight_some (goto_self t h f p), inflight_some hf, hp]
    exact congrArg (· ++ _) (congrFun hcaller h)
  have hlost : ∀ err, (h.connectionLost f.buf err).bytes = [] := by
    intro err
    cases h <;> rfl
  cases poll_cases hs with
  | ended hp hc =>
    have hnone : f.inflight = [] := by simp [IoFuture.inflight, hp]
    exact hdone s _ rfl rfl (by rw [alreadyClosed_bytes hc, hnone])
  | resumed hp =>
    have hnone : f.inflight = [] := by rcases hp with hp | hp <;> simp [IoFuture.inflight, hp]
    exact hgoto s _ rfl rfl (by rw [hnone]; rfl)
  | sent hp | entered hp _ | registered hp =>
    exact hgoto _ _ rfl rfl (by simp [IoFuture.inflight, hp])
  | @returned r _ _ hp hr =>
    have hmsg : f.inflight = r.bytes f.buf := by simp [IoFuture.inflight, hp]
    exact hdone _ _ rfl rfl ((onReply_bytes hr).trans hmsg.symm)
  | unserved hp hr =>
    have hempty := Reply.bytes_of_empty (onReply_wait hr) f.buf
    exact hgoto _ _ rfl rfl (by simp [IoFuture.inflight, hp, hempty])
  | lost hp _ =>
    have hnone : f.inflight = [] := by rcases hp with hp | hp <;> simp [IoFuture.inflight, hp]
    exact hdone s _ rfl rfl (by rw [hlost, hnone])
  | waited hp _ =>
    have hnone : f.inflight = [] := by rcases hp with hp | hp <;> simp [IoFuture.inflight, hp]
    refine hgoto _ _ rfl rfl ?_
    rw [hnone]
    split <;> rfl

theorem drop_bytes {s s' : StreamIo κ} {h : Half} {f : IoFuture} (hs : s.drop h f = some s') :
    s'.engineBytes = s.engineBytes ∧ s'.callerBytes = s.callerBytes := by
  unfold drop at hs
  split at hs
  case h_4 => simp at hs
  all_goals
    cases hs
    exact ⟨rfl, rfl⟩

theorem deliver_bytes (s : StreamIo κ) (x : Option ((Half × Nat) × Reply)) :
    (s.deliver x).engineBytes = s.engineBytes ∧ (s.deliver x).callerBytes = s.callerBytes := by
  unfold deliver
  split
  · split
    · split <;> exact ⟨rfl, rfl⟩
    · exact ⟨rfl, rfl⟩
  · exact ⟨rfl, rfl⟩

theorem deliver_waiting {s t : StreamIo κ} {h : Half} {f : IoFuture} {r : Reply}
    (ht : t.futures = s.futures) (hf : s.futures h = some f) (hp : f.point = .reply none) :
    (t.deliver (some ((h, f.serial), r))).inflight h = r.bytes f.buf := by
  rcases f with ⟨serial, buf, point⟩
  obtain rfl : point = .reply none := hp
  simp [deliver, ht, hf, goto, inflight, IoFuture.inflight]

/-! ## Runs that lose nothing -/

def Owned (s : StreamIo κ) (cmd : ConnCommand (Half × Nat)) : Prop :=
  ∃ h n, cmd.respond = some (h, n) ∧ ∃ f ∈ s.futures h, f.serial = n

/-- No future is dropped with bytes on their way to it, and no command moves
bytes for a future that is gone. -/
def KeepsBytes (T : Tquic κ) (s : StreamIo κ) : IoEvent κ → Prop
  | .drop h => s.inflight h = []
  | .process => ∀ cmd ∈ s.bridge.queue.head?, s.Owned cmd ∨ cmd.moved T s.bridge.conn = []
  | _ => True

theorem recordMoved_request (s : StreamIo κ) (T : Tquic κ) (conn : Option κ) (h : Half)
    (buf : Bytes) (a : Half × Nat) :
    s.recordMoved T conn (h.request buf a) =
      { s with
        engineBytes :=
          Function.update s.engineBytes h
            (s.engineBytes h ++ (h.request buf a).moved T conn) } := by
  simp [recordMoved]

theorem accounted_process {T : Tquic κ} {s s' : StreamIo κ} (hs : s.Accounted) (hq : s.Queued)
    (hkeep : s.KeepsBytes T .process) (hstep : s.step T .process = some s') :
    s'.Accounted := by
  obtain ⟨cmd, b, reply, hp, rfl⟩ := step_process hstep
  obtain ⟨_, hqueue, _, _, hproc⟩ := Bridge.process_some hp
  obtain ⟨g, buf, n, rfl, _, hlive⟩ := hq.request cmd (by simp [hqueue])
  obtain ⟨conn', r, hr⟩ := request_replies T s.bridge.conn g buf (g, n)
  obtain ⟨_, rfl⟩ : _ ∧ some ((g, n), r) = reply := by simpa [hr] using hproc
  rw [recordMoved_request]
  intro h
  rw [(deliver_bytes _ _).1, (deliver_bytes _ _).2]
  by_cases hh : h = g
  · subst hh
    simp only [Function.update_self]
    rw [hs h, List.append_assoc]
    congr 1
    by_cases hown : ∃ f ∈ s.futures h, f.serial = n
    · obtain ⟨f, hf, rfl⟩ := hown
      obtain ⟨hpoint, hbuf⟩ := hlive f hf rfl
      have hbefore : s.inflight h = [] := by
        simp [inflight_some hf, IoFuture.inflight, hpoint]
      rw [hbefore, List.nil_append, deliver_waiting ?_ hf hpoint, hbuf, request_moved hr]
      rfl
    · have hmoved : (h.request buf (h, n)).moved T s.bridge.conn = [] := by
        rcases hkeep (h.request buf (h, n)) (by simp [hqueue]) with ⟨h', n', hrespond, f, hf, hserial⟩ | hmoved
        · rw [Half.request_respond] at hrespond
          obtain ⟨rfl, rfl⟩ : h = h' ∧ n = n' := by simpa using hrespond
          exact absurd ⟨f, hf, hserial⟩ hown
        · exact hmoved
      rw [hmoved, List.append_nil]
      symm
      apply inflight_congr
      rcases deliver_futures _ (some ((h, n), r)) h with hsame | ⟨f, r', hf, _, hreply, _⟩
      · exact hsame
      · obtain ⟨⟨_, hserial⟩, _⟩ : (h = h ∧ n = f.serial) ∧ r = r' := by simpa using hreply
        exact absurd ⟨f, hf, hserial.symm⟩ hown
  · simp only [ne_eq, hh, not_false_eq_true, Function.update_of_ne]
    rw [hs h]
    congr 1
    symm
    apply inflight_congr
    rcases deliver_futures _ (some ((g, n), r)) h with hsame | ⟨f, r', _, _, hreply, _⟩
    · exact hsame
    · exact absurd (by simpa [eq_comm] using congrArg (·.map fun x => x.1.1) hreply) hh

theorem accounted_step {T : Tquic κ} {s s' : StreamIo κ} {e : IoEvent κ} (hs : s.Accounted)
    (hq : s.Queued) (hkeep : s.KeepsBytes T e) (h : s.step T e = some s') : s'.Accounted := by
  cases e with
  | process => exact accounted_process hs hq hkeep h
  | bridge e =>
    obtain ⟨b, _, rfl⟩ := step_bridge h
    exact hs
  | call g buf =>
    obtain ⟨hnone, rfl⟩ := step_call h
    intro h
    have hinflight : ∀ t : StreamIo κ, t.futures = Function.update s.futures g
        (some ⟨s.next, buf, .begin⟩) → t.inflight h = s.inflight h := by
      intro t ht
      by_cases hh : h = g
      · subst hh
        simp [inflight, ht, hnone, IoFuture.inflight]
      · simp [inflight, ht, hh]
    rw [hinflight _ rfl]
    exact hs h
  | poll g =>
    obtain ⟨f, hf, h⟩ := step_poll h
    obtain ⟨hengine, hothers, hself⟩ := poll_bytes hf h
    intro h'
    by_cases hh : h' = g
    · subst hh
      rw [hengine, hself]
      exact hs h'
    · rw [hengine, hothers h' hh, inflight_congr (poll_other hh h).1]
      exact hs h'
  | drop g =>
    obtain ⟨f, hf, h⟩ := step_drop h
    obtain ⟨hengine, hcaller⟩ := drop_bytes h
    intro h'
    rw [hengine, hcaller]
    by_cases hh : h' = g
    · subst hh
      have hbefore : s.inflight h' = [] := hkeep
      rw [hs h', hbefore, inflight_none (drop_future h).2.2]
    · rw [inflight_congr (drop_other hh h).1]
      exact hs h'

/-- In a run that keeps the bytes of its futures, completed reads have reported
a prefix of what the peer sent, completed writes exactly what the engine
accepted, and what is not reported yet is on its way to a live future. -/
theorem cancellation_safe (T : Tquic κ) (connId : Nat) (conn : κ) (remoteAddr : SocketAddr)
    (isServer : Bool) (t : StreamIo κ)
    (ht : Reach (step T) (KeepsBytes T) (init connId conn remoteAddr isServer) t) :
    (∀ streamId sent, t.engineBytes (.recv streamId) <+: sent →
      t.callerBytes (.recv streamId) <+: sent) ∧
    (∀ streamId, t.engineBytes (.send streamId) =
      t.callerBytes (.send streamId) ++ t.inflight (.send streamId)) ∧
    ∀ h, t.inflight h = [] → t.callerBytes h = t.engineBytes h := by
  have hinv : t.Accounted ∧ t.Queued := by
    induction ht with
    | refl =>
      exact ⟨fun h => by simp [init, inflight], queued_init connId conn remoteAddr isServer⟩
    | tail _ hkeep hstep ih =>
      exact ⟨accounted_step ih.1 ih.2 hkeep hstep, queued_step ih.2 hstep⟩
  refine ⟨?_, fun streamId => hinv.1 _, ?_⟩
  · intro streamId sent hsent
    have hbefore : t.callerBytes (.recv streamId) <+: t.engineBytes (.recv streamId) := by
      rw [hinv.1 (.recv streamId)]
      exact List.prefix_append ..
    exact hbefore.trans hsent
  · intro h hnone
    rw [hinv.1 h, hnone, List.append_nil]

/-- A read dropped before its request is answered, for which there is nothing, and a read
that reports a byte. -/
def abandonedRead : List (IoEvent Script) :=
  [.call (.recv 0) [0], .poll (.recv 0), .poll (.recv 0), .drop (.recv 0), .process,
    .call (.recv 0) [0], .poll (.recv 0), .poll (.recv 0), .process, .poll (.recv 0)]

theorem cancellation_safe_completed :
    ∃ t, run (step Tquic.scripted)
        (init 0 { reads := [.error .done, .ok ([1], false)] } .unspecified false)
        abandonedRead = some t ∧
      t.callerBytes (.recv 0) = [1] ∧ t.callerBytes (.recv 0) <+: [1, 2] := by
  obtain ⟨t, hrun, hcaller, hengine, hkeeps⟩ : ∃ t, run (step Tquic.scripted)
        (init 0 { reads := [.error .done, .ok ([1], false)] } .unspecified false)
        abandonedRead = some t ∧
      t.callerBytes (.recv 0) = [1] ∧ t.engineBytes (.recv 0) = [1] ∧
      Along (step Tquic.scripted) (KeepsBytes Tquic.scripted)
        (init 0 { reads := [.error .done, .ok ([1], false)] } .unspecified false)
        abandonedRead := by
    refine ⟨_, rfl, rfl, rfl, trivial, trivial, trivial, rfl, ?_, trivial, trivial, trivial, ?_,
      trivial, trivial⟩
    · intro cmd hcmd
      cases hcmd
      exact Or.inr rfl
    · intro cmd hcmd
      cases hcmd
      exact Or.inl ⟨.recv 0, _, rfl, _, rfl, rfl⟩
  refine ⟨t, hrun, hcaller, ?_⟩
  apply (cancellation_safe Tquic.scripted 0 _ .unspecified false t
    (reach_of_along hrun hkeeps)).1 0 [1, 2]
  exact ⟨[2], by rw [hengine]; rfl⟩

/-- A read dropped after its request was answered loses the byte, and the next
read reports the one behind it. -/
def droppedRead : List (IoEvent Script) :=
  [.call (.recv 0) [0], .poll (.recv 0), .poll (.recv 0), .process, .drop (.recv 0),
    .call (.recv 0) [0], .poll (.recv 0), .poll (.recv 0), .process, .poll (.recv 0)]

/-- A write dropped after its request was answered has sent a byte it never
reports. -/
def droppedWrite : List (IoEvent Script) :=
  [.call (.send 0) [7], .poll (.send 0), .poll (.send 0), .process, .drop (.send 0)]

theorem cancellation_loses_bytes :
    (¬ ∀ t, Reach (step Tquic.scripted) Any
        (init 0 { reads := [.ok ([1], false), .ok ([2], false)] } .unspecified false) t →
      ∀ streamId sent, t.engineBytes (.recv streamId) <+: sent →
        t.callerBytes (.recv streamId) <+: sent) ∧
    ¬ ∀ t, Reach (step Tquic.scripted) Any (init 0 { writes := [.ok 1] } .unspecified false) t →
      ∀ streamId, t.futures (.send streamId) = none →
        t.callerBytes (.send streamId) = t.engineBytes (.send streamId) := by
  constructor
  · intro hall
    obtain ⟨t, hrun, hengine, hcaller⟩ :
        ∃ t, run (step Tquic.scripted)
            (init 0 { reads := [.ok ([1], false), .ok ([2], false)] } .unspecified false)
            droppedRead = some t ∧
          t.engineBytes (.recv 0) = [1, 2] ∧ t.callerBytes (.recv 0) = [2] :=
      ⟨_, rfl, rfl, rfl⟩
    have hbefore := hall t (reach_any_of_run hrun) 0 [1, 2] (by simp [hengine])
    simp [hcaller] at hbefore
  · intro hall
    obtain ⟨t, hrun, hnone, hengine, hcaller⟩ :
        ∃ t, run (step Tquic.scripted) (init 0 { writes := [.ok 1] } .unspecified false)
            droppedWrite = some t ∧ t.futures (.send 0) = none ∧
          t.engineBytes (.send 0) = [7] ∧ t.callerBytes (.send 0) = [] :=
      ⟨_, rfl, rfl, rfl, rfl⟩
    have hsame := hall t (reach_any_of_run hrun) 0 hnone
    simp [hcaller, hengine] at hsame

end StreamIo

end TokioTquic
