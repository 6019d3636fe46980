import TokioTquic.CallPasses

/-!
# What calls return among all the others

One half of a connection is watched while everything else goes on: for every call on it
the answers to its own requests are recorded. A call that returns, returns what it
would return as a sequential program with these answers.
-/

namespace TokioTquic
open Async
set_option autoImplicit false

universe u
variable {κ : Type u} {β α π : Type}

/-! ## One half of the connection -/

/-- How the handle of a half sits in the state, and what its requests are answered. -/
structure HandleView (κ : Type u) (β : Type) {α π : Type} [SequentialHandle β α π] where
  half : Half
  self : StreamIo κ → β
  answer : Tquic κ → Option κ → Bytes → α
  on_half : ∀ s (c : Call), c.on half = true → c.on (StreamHandle.half (self s)) = true
  lost : ∀ (x : β) buf e, half.connectionLost buf e = (StreamHandle.half x).connectionLost buf e
  alreadyClosed : ∀ s buf, s.alreadyClosed half buf =
    if StreamHandle.ended (self s) then some (StreamHandle.atEnd β buf) else none
  self_congr : ∀ {s t : StreamIo κ}, t.recv = s.recv → t.send = s.send → self t = self s
  self_other : ∀ {s t : StreamIo κ} {h buf r p}, h ≠ half → s.onReply h buf r = some (t, p) →
    self t = self s
  onReply : ∀ {T : Tquic κ} {conn conn' : Option κ} {buf : Bytes} {a a' : Half × Nat} {r : Reply},
    processConnCommand T conn (half.request buf a) = (conn', some (a', r)) →
    ∀ {s t : StreamIo κ} {p}, s.onReply half buf r = some (t, p) →
      StreamHandle.onAnswer (self s) buf (answer T conn buf) = (self t, p)

/-- The reply tells the future that offered `buf` the answer `a`. -/
def HandleView.Tells [SequentialHandle β α π] (v : HandleView κ β) (buf : Bytes) (r : Reply)
    (a : α) : Prop :=
  ∀ {s t : StreamIo κ} {p}, s.onReply v.half buf r = some (t, p) →
    StreamHandle.onAnswer (v.self s) buf a = (v.self t, p)

def recvView (κ : Type u) (streamId : Nat) : HandleView κ RecvStream where
  half := .recv streamId
  self s := s.recv streamId
  answer T conn buf :=
    match conn with
    | some c => .engine (T.streamRead c streamId buf.length).1
    | none => .noConnection
  on_half _ c h := by cases c <;> exact h
  lost _ _ _ := rfl
  alreadyClosed _ _ := rfl
  self_congr hrecv _ := congrFun hrecv streamId
  self_other {s t h buf r p} hne hr := by
    unfold StreamIo.onReply at hr
    split at hr
    · cases hr
      have hother : streamId ≠ _ := fun heq => hne (congrArg Half.recv heq.symm)
      exact Function.update_of_ne hother _ _
    · cases hr
      rfl
    · cases hr
  onReply {T conn conn' buf a a' r} hproc s t p hr := by
    simp only [Half.request, processConnCommand, Prod.mk.injEq, Option.some.injEq] at hproc
    obtain ⟨_, _, rfl⟩ := hproc
    simp only [StreamIo.onReply, Option.some.injEq, Prod.mk.injEq] at hr
    obtain ⟨rfl, rfl⟩ := hr
    cases conn <;> simp [onEngine, StreamHandle.onAnswer, ReadAnswer.reply]

def sendView (κ : Type u) (streamId : Nat) : HandleView κ SendStream where
  half := .send streamId
  self s := s.send streamId
  answer T conn buf :=
    match conn with
    | some c => .engine (T.streamWrite c streamId buf false).1
    | none => .noConnection
  on_half _ c h := by cases c <;> exact h
  lost _ _ _ := rfl
  alreadyClosed _ _ := rfl
  self_congr _ hsend := congrFun hsend streamId
  self_other {s t h buf r p} _ hr := by
    obtain ⟨recv, rfl⟩ := StreamIo.onReply_frame hr
    rfl
  onReply {T conn conn' buf a a' r} hproc s t p hr := by
    simp only [Half.request, processConnCommand, Prod.mk.injEq, Option.some.injEq] at hproc
    obtain ⟨_, _, rfl⟩ := hproc
    simp only [StreamIo.onReply, Option.some.injEq, Prod.mk.injEq] at hr
    obtain ⟨rfl, rfl⟩ := hr
    cases conn <;> simp [onEngine, StreamHandle.onAnswer, WriteAnswer.reply]

/-! ## The record of a call -/

/-- A call in progress: the handle it began with, and the passes of its loops so far. -/
structure Track (β α : Type) where
  call : Call
  start : β
  passes : List (HandlePass α)

/-- A call that returned, and its handle afterwards. -/
structure Returned (β α : Type) extends Track β α where
  outcome : Outcome
  self : β

def failLast (e : ConnectionError) : List (HandlePass α) → List (HandlePass α)
  | [] => []
  | [p] => [{ p with lost := some e }]
  | p :: ps => p :: failLast e ps

theorem failLast_snoc (e : ConnectionError) (ps : List (HandlePass α)) (a : α) :
    failLast e (ps ++ [⟨a, none⟩]) = ps ++ [⟨a, some e⟩] := by
  induction ps with
  | nil => rfl
  | cons p ps ih =>
    cases ps with
    | nil => rfl
    | cons q qs => exact congrArg (p :: ·) ih

namespace Track

def answered (t : Track β α) (a : α) : Track β α := { t with passes := t.passes ++ [⟨a, none⟩] }

def looked (t : Track β α) (f : IoFuture) (closed : Option ConnectionError) : Track β α :=
  match f.point, closed with
  | .check, some e | .recheck, some e => { t with passes := failLast e t.passes }
  | _, _ => t

variable [SequentialHandle β α π]

/-- With the passes `ps` behind it, `g` is what the call makes of the passes to come. -/
def Leads (t : Track β α) (ps : List (HandlePass α))
    (g : List π → Option (Outcome × β × List π)) : Prop :=
  ∀ rest, SequentialHandle.call t.start t.call (ps.map (SequentialHandle.pass β) ++ rest) = g rest

def inLoop (caller : Caller) (buf : Bytes) (self : β) (rest : List π) :
    Option (Outcome × β × List π) :=
  (SequentialHandle.loop self buf rest).bind fun (c, self, rest) =>
    caller.proceed SequentialHandle.resume c self rest

/-- Where the future stands in the sequential program. From the reply on, the last pass
is not over. -/
def Follows (v : HandleView κ β) (t : Track β α) (self : β) (caller : Caller) (f : IoFuture) :
    Prop :=
  match f.point with
  | .begin =>
    caller.Ready f.buf ∧ t.Leads t.passes (SequentialHandle.resume self caller f.buf)
  | .send | .reply none => t.Leads t.passes (inLoop caller f.buf self)
  | .reply (some r) => ∃ ps a, t.passes = ps ++ [⟨a, none⟩] ∧ v.Tells f.buf r a ∧
      t.Leads ps (inLoop caller f.buf self)
  | _ => ∃ ps a before, t.passes = ps ++ [⟨a, none⟩] ∧
      StreamHandle.onAnswer before f.buf a = (self, .wait) ∧
      t.Leads ps (inLoop caller f.buf before)

theorem Leads.again {t : Track β α} {ps : List (HandlePass α)} {a : α} {self before : β}
    {caller : Caller} {buf : Bytes} (h : t.Leads ps (inLoop caller buf before))
    (ha : StreamHandle.onAnswer before buf a = (self, .wait)) :
    t.Leads (ps ++ [⟨a, none⟩]) (inLoop caller buf self) := by
  intro rest
  rw [List.map_append, List.append_assoc, h]
  simp only [inLoop, List.map_cons, List.map_nil, List.cons_append, List.nil_append,
    SequentialHandle.loop_wait rest ha]

theorem Leads.returns {t : Track β α} {ps : List (HandlePass α)} {a : α} {self before : β}
    {caller : Caller} {buf : Bytes} {c : Completion} (h : t.Leads ps (inLoop caller buf before))
    (ha : StreamHandle.onAnswer before buf a = (self, .ret c)) :
    t.Leads (ps ++ [⟨a, none⟩]) (caller.proceed SequentialHandle.resume c self) := by
  intro rest
  rw [List.map_append, List.append_assoc, h]
  simp only [inLoop, List.map_cons, List.map_nil, List.cons_append, List.nil_append,
    SequentialHandle.loop_ret none rest ha, Option.bind_some]

theorem Leads.fails {t : Track β α} {ps : List (HandlePass α)} {a : α} {self before : β}
    {caller : Caller} {buf : Bytes} (h : t.Leads ps (inLoop caller buf before))
    (ha : StreamHandle.onAnswer before buf a = (self, .wait)) (e : ConnectionError) :
    t.Leads (ps ++ [⟨a, some e⟩]) (caller.proceed SequentialHandle.resume
      ((StreamHandle.half self).connectionLost buf e) self) := by
  intro rest
  rw [List.map_append, List.append_assoc, h]
  simp only [inLoop, List.map_cons, List.map_nil, List.cons_append, List.nil_append,
    SequentialHandle.loop_lost e rest ha, Option.bind_some]

/-- A future that waits for a reply gets the answer to its request. -/
theorem Follows.answered {v : HandleView κ β} {t : Track β α} {self : β} {caller : Caller}
    {f : IoFuture} {r : Reply} {a : α} (h : t.Follows v self caller f)
    (hp : f.point = .reply none) (hr : v.Tells f.buf r a) :
    (t.answered a).Follows v self caller { f with point := .reply (some r) } := by
  have hlead : t.Leads t.passes (inLoop caller f.buf self) := by simpa only [Follows, hp] using h
  exact ⟨t.passes, a, rfl, hr, hlead⟩

end Track

namespace StreamIo
variable [SequentialHandle β α π]

@[simp] theorem view_goto (v : HandleView κ β) (s : StreamIo κ) (h : Half) (f : IoFuture)
    (p : Point) : v.self (s.goto h f p) = v.self s := v.self_congr rfl rfl

@[simp] theorem view_complete (v : HandleView κ β) (s : StreamIo κ) (h : Half) (c : Completion) :
    v.self (s.complete h c) = v.self s := v.self_congr rfl rfl

@[simp] theorem view_bridge (v : HandleView κ β) (s : StreamIo κ) (b : Bridge κ (Half × Nat)) :
    v.self { s with bridge := b } = v.self s := v.self_congr rfl rfl

@[simp] theorem view_setCn (v : HandleView κ β) (s : StreamIo κ) (cn : ConnNotify) :
    v.self (s.setCn cn) = v.self s := v.self_congr rfl rfl

theorem follows_wait {v : HandleView κ β} {t : Track β α} {self : β} {caller : Caller}
    {f : IoFuture} (h : t.Follows v self caller f)
    (hp : f.point = .check ∨ f.point = .entry ∨ f.point = .notified ∨ f.point = .parked ∨
      f.point = .recheck) :
    ∃ ps a before, t.passes = ps ++ [⟨a, none⟩] ∧
      StreamHandle.onAnswer before f.buf a = (self, .wait) ∧
      t.Leads ps (Track.inLoop caller f.buf before) := by
  rcases hp with hp | hp | hp | hp | hp <;> simpa only [Track.Follows, hp] using h

theorem follows_poll {v : HandleView κ β} {t : Track β α} {caller : Caller}
    {s s' : StreamIo κ} {f : IoFuture} (h : t.Follows v (v.self s) caller f)
    (hstep : s.poll v.half f = some s') (hresult : s.result v.half f = none) :
    ∃ f', s'.futures v.half = some f' ∧ t.Follows v (v.self s') caller f' := by
  cases poll_cases hstep with
  | ended hp hc => simp [result, hp, hc] at hresult
  | returned hp hr => simp [result, hp, hr] at hresult
  | lost hp hc => rcases hp with hp | hp <;> simp [result, hp, hc] at hresult
  | resumed hp =>
    refine ⟨_, goto_self s v.half f .send, ?_⟩
    rw [view_goto]
    rcases hp with hp | hp
    · have hopen : StreamHandle.ended (v.self s) = false := by
        have hclosed : s.alreadyClosed v.half f.buf = none := by
          simpa only [result, hp] using hresult
        rw [v.alreadyClosed] at hclosed
        split at hclosed
        · cases hclosed
        · exact Bool.eq_false_iff.mpr ‹_›
      obtain ⟨hready, hlead⟩ : caller.Ready f.buf ∧
          t.Leads t.passes (SequentialHandle.resume (v.self s) caller f.buf) := by
        simpa only [Track.Follows, hp] using h
      intro rest
      rw [hlead rest, SequentialHandle.resume_loop rest hopen hready]
      rfl
    · obtain ⟨ps, a, before, hps, ha, hlead⟩ := follows_wait h (by simp [hp])
      change t.Leads t.passes (Track.inLoop caller f.buf (v.self s))
      rw [hps]
      exact hlead.again ha
  | sent hp =>
    refine ⟨_, goto_self _ v.half f _, ?_⟩
    rw [view_goto, view_bridge]
    simpa only [Track.Follows, hp] using h
  | unserved hp hr =>
    refine ⟨_, goto_self _ v.half f _, ?_⟩
    obtain ⟨ps, a, hps, htells, hlead⟩ : ∃ ps a, t.passes = ps ++ [⟨a, none⟩] ∧
        v.Tells f.buf _ a ∧ t.Leads ps (Track.inLoop caller f.buf (v.self s)) := by
      simpa only [Track.Follows, hp] using h
    rw [view_goto]
    exact ⟨ps, a, v.self s, hps, htells hr, hlead⟩
  | entered hp _ =>
    refine ⟨_, goto_self _ v.half f _, ?_⟩
    rw [view_goto]
    have hwait := follows_wait h (Or.inl hp)
    exact hwait
  | registered hp =>
    refine ⟨_, goto_self _ v.half f _, ?_⟩
    rw [view_goto, view_setCn]
    have hwait := follows_wait h (Or.inr (Or.inl hp))
    exact hwait
  | @waited n hp _ =>
    refine ⟨_, goto_self _ v.half f _, ?_⟩
    rw [view_goto, view_setCn]
    have hwait := follows_wait h (by rcases hp with hp | hp <;> simp [hp])
    cases (n.poll f.serial).1 <;> exact hwait

theorem leads_result {v : HandleView κ β} {t : Track β α} {caller : Caller}
    {s s' : StreamIo κ} {f : IoFuture} {c : Completion} (h : t.Follows v (v.self s) caller f)
    (hstep : s.poll v.half f = some s') (hresult : s.result v.half f = some c) :
    (t.looked f s.bridge.cn.closed).Leads (t.looked f s.bridge.cn.closed).passes
      (caller.proceed SequentialHandle.resume c (v.self s')) := by
  cases poll_cases hstep with
  | resumed hp =>
    rcases poll_result hstep with ⟨c', recv, _, heq⟩ | ⟨hnone, _⟩
    · have hfut := goto_self s v.half f .send
      rw [heq, complete_self] at hfut
      cases hfut
    · simp [hnone] at hresult
  | sent hp => simp [result, hp] at hresult
  | unserved hp hr => simp [result, hp, hr] at hresult
  | entered hp hopen => simp [result, hp, hopen] at hresult
  | registered hp => simp [result, hp] at hresult
  | waited hp _ => rcases hp with hp | hp <;> simp [result, hp] at hresult
  | @ended c' hp hc =>
    obtain rfl : c' = c := by simpa [result, hp, hc] using hresult
    obtain ⟨hready, hlead⟩ : caller.Ready f.buf ∧
        t.Leads t.passes (SequentialHandle.resume (v.self s) caller f.buf) := by
      simpa only [Track.Follows, hp] using h
    have hlooked : t.looked f s.bridge.cn.closed = t := by simp [Track.looked, hp]
    rw [hlooked, view_complete]
    rw [v.alreadyClosed] at hc
    split at hc
    · rename_i hended
      cases hc
      intro rest
      rw [hlead rest, SequentialHandle.resume_ended rest hended hready]
    · cases hc
  | @returned r recv c' hp hr =>
    obtain rfl : c' = c := by simpa [result, hp, hr] using hresult
    obtain ⟨ps, a, hps, htells, hlead⟩ : ∃ ps a, t.passes = ps ++ [⟨a, none⟩] ∧
        v.Tells f.buf r a ∧ t.Leads ps (Track.inLoop caller f.buf (v.self s)) := by
      simpa only [Track.Follows, hp] using h
    have hlooked : t.looked f s.bridge.cn.closed = t := by simp [Track.looked, hp]
    rw [hlooked, view_complete, hps]
    exact hlead.returns (htells hr)
  | @lost err hp hclosed =>
    obtain rfl : v.half.connectionLost f.buf err = c := by
      rcases hp with hp | hp <;> simpa [result, hp, hclosed] using hresult
    obtain ⟨ps, a, before, hps, ha, hlead⟩ :=
      follows_wait h (by rcases hp with hp | hp <;> simp [hp])
    have hlooked : t.looked f s.bridge.cn.closed =
        { t with passes := ps ++ [⟨a, some err⟩] } := by
      rcases hp with hp | hp <;> simp [Track.looked, hp, hclosed, hps, failLast_snoc]
    rw [hlooked, view_complete, v.lost (v.self s)]
    exact hlead.fails ha err

theorem call_view (v : HandleView κ β) {T : Tquic κ} {s s' : StreamIo κ} {h : Half} {buf : Bytes}
    (hstep : s.step T (.call h buf) = some s') : v.self s' = v.self s := by
  obtain ⟨_, rfl⟩ := step_call hstep
  exact v.self_congr rfl rfl

theorem follows_call {v : HandleView κ β} {T : Tquic κ} {t : Track β α} {caller : Caller}
    {s s' : StreamIo κ} {buf : Bytes} (hstep : s.step T (.call v.half buf) = some s')
    (hready : caller.Ready buf)
    (hlead : t.Leads t.passes (SequentialHandle.resume (v.self s) caller buf)) :
    ∃ f, s'.futures v.half = some f ∧ t.Follows v (v.self s') caller f := by
  rw [call_view v hstep]
  obtain ⟨_, rfl⟩ := step_call hstep
  exact ⟨_, Function.update_self .., hready, hlead⟩

theorem process_view (v : HandleView κ β) {T : Tquic κ} {s s' : StreamIo κ}
    (hstep : s.step T .process = some s') : v.self s' = v.self s := by
  obtain ⟨cmd, b, reply, _, rfl⟩ := step_process hstep
  have hmoved : v.self (({ s with bridge := b } : StreamIo κ).recordMoved T s.bridge.conn cmd) =
      v.self s := by
    unfold recordMoved
    split <;> exact v.self_congr rfl rfl
  rw [← hmoved]
  unfold deliver
  split
  · split
    · split
      · exact view_goto v _ _ _ _
      · rfl
    · rfl
  · rfl

/-- What happens at other halves is not seen here. -/
theorem poll_view {v : HandleView κ β} {s s' : StreamIo κ} {h : Half} {f : IoFuture}
    (hne : h ≠ v.half) (hstep : s.poll h f = some s') : v.self s' = v.self s := by
  cases poll_cases hstep with
  | ended | lost => exact view_complete v _ _ _
  | resumed | entered => exact view_goto v _ _ _ _
  | sent => rw [view_goto, view_bridge]
  | registered | waited => rw [view_goto, view_setCn]
  | returned _ hr => rw [view_complete, v.self_other hne hr]
  | unserved _ hr => rw [view_goto, v.self_other hne hr]

theorem drop_view {v : HandleView κ β} {s s' : StreamIo κ} {h : Half} {f : IoFuture}
    (hstep : s.drop h f = some s') : v.self s' = v.self s := by
  unfold drop at hstep
  split at hstep
  case h_4 => cases hstep
  all_goals
    cases hstep
    exact v.self_congr rfl rfl

/-- The reply that answers the future of `v.half` tells it the answer to its own request. -/
theorem process_answers {v : HandleView κ β} {T : Tquic κ} {s s' : StreamIo κ} (hq : s.Queued)
    (hstep : s.step T .process = some s') :
    s'.futures v.half = s.futures v.half ∨ ∃ f r, s.futures v.half = some f ∧
      f.point = .reply none ∧ s'.futures v.half = some { f with point := .reply (some r) } ∧
      v.Tells f.buf r (v.answer T s.bridge.conn f.buf) := by
  obtain ⟨cmd, b, reply, hp, rfl, _, hfut⟩ := process_futures hstep
  obtain ⟨_, hqueue, _, _, hproc⟩ := Bridge.process_some hp
  rcases hfut v.half with hsame | ⟨f, r, hf, hpoint, rfl, hf'⟩
  · exact Or.inl hsame
  · refine Or.inr ⟨f, r, hf, hpoint, hf', ?_⟩
    obtain ⟨g, buf, n, rfl, _, hlive⟩ := hq.request cmd (by simp [hqueue])
    have hrespond := processConnCommand_reply hproc
    rw [Half.request_respond] at hrespond
    obtain ⟨rfl, rfl⟩ : g = v.half ∧ n = f.serial := by simpa using hrespond
    obtain rfl := (hlive f hf rfl).2
    exact fun {s t p} hr => v.onReply hproc hr

theorem queued_share {s : StreamIo κ} (hq : s.Queued) {ρ : Type} (b : Bridge κ ρ) :
    ({ s with bridge := s.bridge.share b } : StreamIo κ).Queued :=
  ⟨hq.fresh, hq.request, hq.nodup⟩

end StreamIo

theorem Call.start_idle {c : Call} {caller : Caller} {buf : Bytes}
    (h : c.start = some (caller, buf)) : c.idle = none := by
  cases c with
  | read _ | readToEnd _ | write _ => rfl
  | readExact buf' | writeAll buf' =>
    cases buf' with
    | nil => cases h
    | cons _ _ => rfl

theorem Call.idle_of_start {c : Call} {h : Half} (hon : c.on h = true) (hstart : c.start = none) :
    ∃ o, c.idle = some o := by
  cases c with
  | read _ | readToEnd _ | write _ => cases hstart
  | readExact buf | writeAll buf =>
    cases buf with
    | nil => exact ⟨_, rfl⟩
    | cons _ _ => simp [start] at hstart

/-! ## The watched half among the others -/

/-- All operations on a connection, with the calls on one half. -/
structure Observed (κ : Type u) (β α : Type) where
  ops : Operations κ
  current : Option (Track β α)
  returned : List (Returned β α)

namespace Observed
variable [SequentialHandle β α π]

def init (connId : Nat) (conn : κ) (remoteAddr : SocketAddr) (isServer : Bool) :
    Observed κ β α where
  ops := .init connId conn remoteAddr isServer
  current := none
  returned := []

def move (s : Observed κ β α) (ops : Operations κ) : Observed κ β α := { s with ops := ops }

/-- The buffer of the future that has just got its reply. -/
def justAnswered : Option IoFuture → Option IoFuture → Option Bytes
  | some ⟨_, buf, .reply none⟩, some ⟨_, _, .reply (some _)⟩ => some buf
  | _, _ => none

theorem justAnswered_same (f : Option IoFuture) : justAnswered f f = none := by
  rcases f with _ | ⟨_, _, _ | _ | msg | _ | _ | _ | _ | _⟩
  case some.reply => cases msg <;> rfl
  all_goals rfl

theorem justAnswered_reply {f : IoFuture} (hp : f.point = .reply none) (r : Reply) :
    justAnswered (some f) (some { f with point := .reply (some r) }) = some f.buf := by
  rcases f with ⟨serial, buf, point⟩
  obtain rfl : point = .reply none := hp
  rfl

/-- The `read` or `write` of the watched half returned `c` to its caller. -/
def complete (v : HandleView κ β) (s : Observed κ β α) (ops : Operations κ) (f : IoFuture)
    (c : Completion) : Observed κ β α :=
  match s.current, (s.ops.callers v.half).bind fun caller => caller.onCompletion c with
  | some t, some (.again _ _) =>
    { s.move ops with current := some (t.looked f s.ops.closeReason) }
  | some t, some o =>
    { s.move ops with
      current := none
      returned := s.returned ++ [⟨t.looked f s.ops.closeReason, o, v.self ops.io⟩] }
  | _, _ => s.move ops

def note (v : HandleView κ β) (T : Tquic κ) (s : Observed κ β α) (e : OperationsEvent κ)
    (ops : Operations κ) : Observed κ β α :=
  match e with
  | .call h c =>
    if h = v.half then
      match c.idle with
      | some o =>
        { s.move ops with
          returned := s.returned ++ [⟨⟨c, v.self s.ops.io, []⟩, o, v.self s.ops.io⟩] }
      | none => { s.move ops with current := some ⟨c, v.self s.ops.io, []⟩ }
    else s.move ops
  | .process =>
    match justAnswered (s.ops.io.futures v.half) (ops.io.futures v.half) with
    | some buf =>
      { s.move ops with
        current := s.current.map (·.answered (v.answer T s.ops.io.bridge.conn buf)) }
    | none => s.move ops
  | .poll h =>
    if h = v.half then
      match (s.ops.io.futures h).bind fun f => (s.ops.io.result h f).map fun c => (f, c) with
      | some (f, c) => s.complete v ops f c
      | none => s.move ops
    else s.move ops
  | .drop h => if h = v.half then { s.move ops with current := none } else s.move ops
  | _ => s.move ops

def step (v : HandleView κ β) (T : Tquic κ) (s : Observed κ β α) (e : OperationsEvent κ) :
    Option (Observed κ β α) :=
  (s.ops.step T e).map (s.note v T e)

/-- The call on the watched half follows its program, or there is none. -/
def Held (v : HandleView κ β) (s : Observed κ β α) : Prop :=
  (s.ops.io.futures v.half = none ∧ s.ops.callers v.half = none ∧ s.current = none) ∨
    ∃ f caller t, s.ops.io.futures v.half = some f ∧ s.ops.callers v.half = some caller ∧
      s.current = some t ∧ t.Follows v (v.self s.ops.io) caller f

/-- The call returned what the program returns with the answers it got. -/
def Sequential (r : Returned β α) : Prop :=
  ∀ rest, SequentialHandle.call r.start r.call (r.passes.map (SequentialHandle.pass β) ++ rest) =
    some (r.outcome, r.self, rest)

structure Faithful (v : HandleView κ β) (s : Observed κ β α) : Prop where
  queued : s.ops.io.Queued
  held : s.Held v
  returned : ∀ r ∈ s.returned, Sequential r

variable {v : HandleView κ β} {T : Tquic κ}

theorem Held.keep {s s' : Observed κ β α} (hs : s.Held v)
    (hfut : s'.ops.io.futures v.half = s.ops.io.futures v.half)
    (hcaller : s'.ops.callers v.half = s.ops.callers v.half)
    (hself : v.self s'.ops.io = v.self s.ops.io) (hcurrent : s'.current = s.current) :
    s'.Held v := by
  unfold Held
  rw [hfut, hcaller, hself, hcurrent]
  exact hs

theorem Faithful.keep {s : Observed κ β α} (hs : s.Faithful v) {ops : Operations κ}
    (hqueued : ops.io.Queued) (hfut : ops.io.futures v.half = s.ops.io.futures v.half)
    (hcaller : ops.callers v.half = s.ops.callers v.half)
    (hself : v.self ops.io = v.self s.ops.io) : (s.move ops).Faithful v :=
  ⟨hqueued, hs.held.keep hfut hcaller hself rfl, hs.returned⟩

theorem Held.some {s : Observed κ β α} (hs : s.Held v) {f : IoFuture}
    (hf : s.ops.io.futures v.half = some f) :
    ∃ caller t, s.ops.callers v.half = some caller ∧ s.current = some t ∧
      t.Follows v (v.self s.ops.io) caller f := by
  rcases hs with ⟨hnone, _⟩ | ⟨f', caller, t, hf', hcaller, hcurrent, hfollows⟩
  · cases hnone.symm.trans hf
  · obtain rfl := Option.some.inj (hf'.symm.trans hf)
    exact ⟨caller, t, hcaller, hcurrent, hfollows⟩

theorem faithful_process {s : Observed κ β α} {ops : Operations κ} (hs : s.Faithful v)
    (hstep : s.ops.step T .process = some ops) : (s.note v T .process ops).Faithful v := by
  simp only [Operations.step] at hstep
  split at hstep
  · cases hstep
  · obtain ⟨io, hio, rfl⟩ := Option.map_eq_some_iff.mp hstep
    have hqueued := StreamIo.queued_step hs.queued hio
    have hself := StreamIo.process_view v hio
    rcases StreamIo.process_answers (v := v) hs.queued hio with hsame | ⟨f, r, hf, hp, hf', htells⟩
    · simp only [note, Operations.moveIo, hsame, justAnswered_same]
      exact hs.keep hqueued hsame rfl hself
    · obtain ⟨caller, t, hcaller, hcurrent, hfollows⟩ := hs.held.some hf
      simp only [note, Operations.moveIo, hf, hf', justAnswered_reply hp, hcurrent, Option.map_some]
      refine ⟨hqueued, Or.inr ⟨_, caller, _, hf', hcaller, rfl, ?_⟩, hs.returned⟩
      change (t.answered _).Follows v (v.self io) caller _
      rw [hself]
      exact hfollows.answered hp htells
  · obtain ⟨streams, hstreams, rfl⟩ := Option.map_eq_some_iff.mp hstep
    simp only [note, Operations.moveStreams, justAnswered_same]
    exact hs.keep (StreamIo.queued_share hs.queued _) rfl rfl (StreamIo.view_bridge v _ _)

theorem faithful_call {s : Observed κ β α} {ops : Operations κ} {h : Half} {c : Call}
    (hs : s.Faithful v) (hstep : s.ops.step T (.call h c) = some ops) :
    (s.note v T (.call h c) ops).Faithful v := by
  simp only [Operations.step] at hstep
  split at hstep
  case isFalse => cases hstep
  rename_i hon
  have hself : c.on v.half = true → c.on (StreamHandle.half (v.self s.ops.io)) = true :=
    v.on_half s.ops.io c
  split at hstep
  · rename_i caller buf hstart
    obtain ⟨io, hio, rfl⟩ := Option.map_eq_some_iff.mp hstep
    have hqueued := StreamIo.queued_step hs.queued hio
    by_cases hh : h = v.half
    · subst hh
      have hlead : Track.Leads (⟨c, v.self s.ops.io, []⟩ : Track β α) []
          (SequentialHandle.resume (v.self s.ops.io) caller buf) :=
        fun rest => SequentialHandle.call_start rest (hself hon) hstart
      obtain ⟨f, hf, hfollows⟩ := StreamIo.follows_call hio (Call.start_ready hstart) hlead
      simp only [note, if_true, Call.start_idle hstart]
      exact ⟨hqueued, Or.inr ⟨f, caller, _, hf, Function.update_self .., rfl, hfollows⟩,
        hs.returned⟩
    · have hne : v.half ≠ h := fun heq => hh heq.symm
      simp only [note, if_neg hh]
      apply hs.keep hqueued
      · obtain ⟨_, rfl⟩ := StreamIo.step_call hio
        exact Function.update_of_ne hne _ _
      · exact Function.update_of_ne hne _ _
      · exact StreamIo.call_view v hio
  · rename_i hstart
    cases hstep
    by_cases hh : h = v.half
    · subst hh
      obtain ⟨o, ho⟩ := Call.idle_of_start hon hstart
      simp only [note, if_true, ho]
      refine ⟨hs.queued, hs.held, ?_⟩
      intro r hr
      rcases List.mem_append.mp hr with hr | hr
      · exact hs.returned r hr
      · obtain rfl := List.mem_singleton.mp hr
        exact fun rest => SequentialHandle.call_idle rest (hself hon) ho
    · simp only [note, if_neg hh]
      exact hs.keep hs.queued rfl rfl rfl

theorem faithful_complete {s : Observed κ β α} {io : StreamIo κ} {ops : Operations κ}
    {f : IoFuture} {c : Completion} (hs : s.Faithful v)
    (hf : s.ops.io.futures v.half = some f) (hio : s.ops.io.step T (.poll v.half) = some io)
    (hresult : s.ops.io.result v.half f = some c)
    (hfinish : (s.ops.moveIo io s.ops.streams).finish T v.half c = some ops) :
    (s.complete v ops f c).Faithful v := by
  have hqueued := StreamIo.queued_step hs.queued hio
  obtain ⟨g, hg, hpoll⟩ := StreamIo.step_poll hio
  obtain rfl := Option.some.inj (hf.symm.trans hg)
  obtain ⟨caller, t, hcaller, hcurrent, hfollows⟩ := hs.held.some hf
  have hlead := StreamIo.leads_result hfollows hpoll hresult
  have hnone : io.futures v.half = none := by
    rcases StreamIo.poll_result hpoll with ⟨c', recv, _, rfl⟩ | ⟨hno, _⟩
    · exact StreamIo.complete_self _ _ _
    · cases hno.symm.trans hresult
  have hcaller' : (s.ops.moveIo io s.ops.streams).callers v.half = some caller := hcaller
  unfold Operations.finish at hfinish
  rw [hcaller', Option.bind_some] at hfinish
  unfold complete
  rw [hcurrent, hcaller, Option.bind_some]
  cases ho : caller.onCompletion c with
  | none =>
    rw [ho] at hfinish
    cases hfinish
  | some o =>
    rw [ho] at hfinish
    have hreturned : ∀ o, caller.onCompletion c = some o →
        (caller.proceed SequentialHandle.resume c (v.self io) =
          fun rest => some (o, v.self io, rest)) →
        ∀ r ∈ s.returned ++ [⟨t.looked f s.ops.closeReason, o, v.self io⟩], Sequential r := by
      intro o ho hproceed r hr
      rcases List.mem_append.mp hr with hr | hr
      · exact hs.returned r hr
      · obtain rfl := List.mem_singleton.mp hr
        rw [hproceed] at hlead
        exact hlead
    cases o with
    | again caller' buf =>
      obtain ⟨io', hio', rfl⟩ := Option.map_eq_some_iff.mp hfinish
      have hproceed : caller.proceed SequentialHandle.resume c (v.self io) =
          SequentialHandle.resume (v.self io) caller' buf := by
        funext rest
        simp only [Caller.proceed, ho]
      rw [hproceed] at hlead
      obtain ⟨f', hf', hfollows'⟩ :=
        StreamIo.follows_call hio' (Caller.onCompletion_ready ho) hlead
      exact ⟨StreamIo.queued_step hqueued hio',
        Or.inr ⟨f', caller', _, hf', Function.update_self .., rfl, hfollows'⟩, hs.returned⟩
    | read _ | readExact _ | readToEnd _ | write _ | writeAll _ =>
      cases hfinish
      refine ⟨hqueued, Or.inl ⟨hnone, Function.update_self .., rfl⟩, hreturned _ ho ?_⟩
      funext rest
      simp only [Caller.proceed, ho]

theorem faithful_poll {s : Observed κ β α} {ops : Operations κ} {h : Half} (hs : s.Faithful v)
    (hstep : s.ops.step T (.poll h) = some ops) : (s.note v T (.poll h) ops).Faithful v := by
  simp only [Operations.step] at hstep
  split at hstep
  case h_2 => cases hstep
  rename_i f io hf hio
  have hqueued := StreamIo.queued_step hs.queued hio
  obtain ⟨g, hg, hpoll⟩ := StreamIo.step_poll hio
  obtain rfl := Option.some.inj (hf.symm.trans hg)
  by_cases hh : h = v.half
  · subst hh
    split at hstep
    · rename_i c hresult
      simp only [note, if_true, hf, Option.bind_some, hresult, Option.map_some]
      exact faithful_complete hs hf hio hresult hstep
    · rename_i hresult
      cases hstep
      obtain ⟨caller, t, hcaller, hcurrent, hfollows⟩ := hs.held.some hf
      obtain ⟨f', hf', hfollows'⟩ := StreamIo.follows_poll hfollows hpoll hresult
      simp only [note, if_true, hf, Option.bind_some, hresult, Option.map_none]
      exact ⟨hqueued, Or.inr ⟨f', caller, t, hf', hcaller, hcurrent, hfollows'⟩, hs.returned⟩
  · have hne : v.half ≠ h := fun heq => hh heq.symm
    have hfut := (StreamIo.poll_other hne hpoll).1
    have hself := StreamIo.poll_view hh hpoll
    simp only [note, if_neg hh]
    split at hstep
    · unfold Operations.finish at hstep
      split at hstep
      · obtain ⟨io', hio', rfl⟩ := Option.map_eq_some_iff.mp hstep
        apply hs.keep (StreamIo.queued_step hqueued hio')
        · obtain ⟨_, rfl⟩ := StreamIo.step_call hio'
          exact (Function.update_of_ne hne _ _).trans hfut
        · exact Function.update_of_ne hne _ _
        · exact (StreamIo.call_view v hio').trans hself
      · cases hstep
        exact hs.keep hqueued hfut (Function.update_of_ne hne _ _) hself
      · cases hstep
    · cases hstep
      exact hs.keep hqueued hfut rfl hself

theorem faithful_drop {s : Observed κ β α} {ops : Operations κ} {h : Half} (hs : s.Faithful v)
    (hstep : s.ops.step T (.drop h) = some ops) : (s.note v T (.drop h) ops).Faithful v := by
  obtain ⟨io, hio, rfl⟩ := Option.map_eq_some_iff.mp hstep
  have hqueued := StreamIo.queued_step hs.queued hio
  obtain ⟨f, hf, hdrop⟩ := StreamIo.step_drop hio
  by_cases hh : h = v.half
  · subst hh
    simp only [note, if_true]
    exact ⟨hqueued, Or.inl ⟨(StreamIo.drop_future hdrop).2.2, Function.update_self .., rfl⟩,
      hs.returned⟩
  · have hne : v.half ≠ h := fun heq => hh heq.symm
    simp only [note, if_neg hh]
    exact hs.keep hqueued (StreamIo.drop_other hne hdrop).1 (Function.update_of_ne hne _ _)
      (StreamIo.drop_view hdrop)

theorem faithful_step {s s' : Observed κ β α} {e : OperationsEvent κ} (hs : s.Faithful v)
    (hstep : s.step v T e = some s') : s'.Faithful v := by
  obtain ⟨ops, hops, rfl⟩ := Option.map_eq_some_iff.mp hstep
  cases e with
  | process => exact faithful_process hs hops
  | call h c => exact faithful_call hs hops
  | poll h => exact faithful_poll hs hops
  | drop h => exact faithful_drop hs hops
  | bridge e =>
    simp only [Operations.step] at hops
    split at hops <;> cases hops
    rename_i io streams hio _
    have hqueued := StreamIo.queued_step hs.queued hio
    obtain ⟨b, _, rfl⟩ := StreamIo.step_bridge hio
    exact hs.keep hqueued rfl rfl (StreamIo.view_bridge v _ _)
  | streams e =>
    simp only [Operations.step] at hops
    split at hops
    · cases hops
    · cases hops
    · obtain ⟨streams, _, rfl⟩ := Option.map_eq_some_iff.mp hops
      exact hs.keep (StreamIo.queued_share hs.queued _) rfl rfl (StreamIo.view_bridge v _ _)
  | closed id =>
    simp only [Operations.step] at hops
    split at hops <;> cases hops
    exact hs.keep hs.queued rfl rfl rfl
  | pollClosed id =>
    simp only [Operations.step] at hops
    split at hops
    · cases hops
      exact hs.keep hs.queued rfl rfl rfl
    · split at hops <;> cases hops <;> exact hs.keep hs.queued rfl rfl rfl
    · split at hops <;> cases hops
      exact hs.keep hs.queued rfl rfl rfl
    · cases hops
  | dropClosed id =>
    simp only [Operations.step] at hops
    split at hops <;> cases hops <;> exact hs.keep hs.queued rfl rfl rfl

theorem faithful_init (connId : Nat) (conn : κ) (remoteAddr : SocketAddr) (isServer : Bool) :
    (init connId conn remoteAddr isServer : Observed κ β α).Faithful v where
  queued := StreamIo.queued_init connId conn remoteAddr isServer
  held := Or.inl ⟨rfl, rfl, rfl⟩
  returned := by simp [init]

theorem faithful_reach {s : Observed κ β α} {connId : Nat} {conn : κ} {remoteAddr : SocketAddr}
    {isServer : Bool}
    (hs : Reach (step v T) Any (init connId conn remoteAddr isServer) s) : s.Faithful v :=
  hs.invariant (fun _ _ _ hI _ hstep => faithful_step hI hstep)
    (faithful_init connId conn remoteAddr isServer)

theorem note_ops (s : Observed κ β α) (e : OperationsEvent κ) (ops : Operations κ) :
    (s.note v T e ops).ops = ops := by
  cases e with
  | process =>
    simp only [note]
    split <;> rfl
  | call h c =>
    simp only [note]
    split
    · split <;> rfl
    · rfl
  | poll h =>
    simp only [note]
    split
    · split
      · unfold complete
        split <;> rfl
      · rfl
    · rfl
  | drop h =>
    simp only [note]
    split <;> rfl
  | bridge _ | streams _ | closed _ | pollClosed _ | dropClosed _ => rfl

theorem watched {t : Operations κ} {connId : Nat} {conn : κ} {remoteAddr : SocketAddr}
    {isServer : Bool}
    (ht : Reach (Operations.step T) Any (.init connId conn remoteAddr isServer) t) :
    ∃ s, Reach (step v T) Any (init connId conn remoteAddr isServer) s ∧ s.ops = t := by
  induction ht with
  | refl => exact ⟨_, .refl _, rfl⟩
  | @tail t u e _ _ hstep ih =>
    obtain ⟨s, hs, rfl⟩ := ih
    have hnote : s.step v T e = some (s.note v T e u) := by
      rw [step, hstep, Option.map_some]
    exact ⟨_, hs.event e trivial hnote, s.note_ops e u⟩

/-- In every run of all the operations on a connection, a call that returns on any of its
streams returns what it does as a sequential program, given the answers to its own requests. -/
theorem calls_sequential (T : Tquic κ) (connId : Nat) (conn : κ) (remoteAddr : SocketAddr)
    (isServer : Bool) (streamId : Nat) :
    (∀ t, Reach (Operations.step T) Any (.init connId conn remoteAddr isServer) t →
      (∃ s, Reach (step (recvView κ streamId) T) Any (init connId conn remoteAddr isServer) s ∧
        s.ops = t) ∧
      ∃ s, Reach (step (sendView κ streamId) T) Any (init connId conn remoteAddr isServer) s ∧
        s.ops = t) ∧
    (∀ s, Reach (step (recvView κ streamId) T) Any (init connId conn remoteAddr isServer) s →
      ∀ r ∈ s.returned, ∀ rest,
        r.start.call r.call (r.passes.map RecvStream.passOf ++ rest) =
          some (r.outcome, r.self, rest)) ∧
    ∀ s, Reach (step (sendView κ streamId) T) Any (init connId conn remoteAddr isServer) s →
      ∀ r ∈ s.returned, ∀ rest,
        r.start.call r.call (r.passes.map SendStream.passOf ++ rest) =
          some (r.outcome, r.self, rest) := by
  refine ⟨fun t ht => ⟨watched ht, watched ht⟩, ?_, ?_⟩
  · intro s hs
    exact (faithful_reach hs).returned
  · intro s hs
    exact (faithful_reach hs).returned

/-- A `read_exact` of two bytes gets them one at a time, with a `write` in between. -/
def interleaved : List (OperationsEvent Script) :=
  [.call (.recv 0) (.readExact [0, 0]), .poll (.recv 0), .poll (.recv 0),
    .call (.send 0) (.write [7]), .poll (.send 0), .process, .poll (.send 0), .poll (.recv 0),
    .process, .poll (.send 0), .poll (.recv 0), .poll (.recv 0), .process, .poll (.recv 0)]

theorem calls_sequential_exact :
    ∃ s : Observed Script RecvStream ReadAnswer,
      Reach (step (recvView Script 0) Tquic.scripted) Any
        (init 0 { reads := [.ok ([1], false), .ok ([2], false)], writes := [.ok 1] }
          .unspecified false) s ∧
      ∃ r ∈ s.returned, r.passes.length = 2 ∧
        r.start.call r.call (r.passes.map RecvStream.passOf ++ []) =
          some (r.outcome, r.self, []) := by
  obtain ⟨s, hrun, r, hr, hlength⟩ :
      ∃ s, run (step (recvView Script 0) Tquic.scripted)
          (init 0 { reads := [.ok ([1], false), .ok ([2], false)], writes := [.ok 1] }
            .unspecified false) interleaved = some s ∧
        ∃ r ∈ s.returned, r.passes.length = 2 :=
    ⟨_, rfl, _, List.mem_cons_self, rfl⟩
  have hs := reach_any_of_run hrun
  have hall := calls_sequential Tquic.scripted 0
    { reads := [.ok ([1], false), .ok ([2], false)], writes := [.ok 1] } .unspecified false 0
  exact ⟨s, hs, r, hr, hlength, hall.2.1 s hs r hr []⟩

end Observed

end TokioTquic
