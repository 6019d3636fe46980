import TokioTquic.AcceptLine

/-!
# The tasks that accept streams

An accept future sleeps in its task's hands until a waker it left behind is
called: with the lock while it queues, with the channel and with the watch while
it selects. A poll may stop at every access to shared state, so that the bridge
thread and other tasks run in between.
-/

namespace TokioTquic
open Async
set_option autoImplicit false

universe u
variable {κ : Type u}

/-- The last poll of an accept future. `task` is the task that ran it, `woken` says
that this task has been woken since the poll began, `running` that the poll has not
returned. The last three say which wakers it left where the future stands. -/
structure AcceptPoll where
  task : Nat
  woken : Bool
  running : Bool
  lockPolled : Bool
  recvPolled : Bool
  closedPolled : Bool

namespace AcceptPoll

def fresh : AcceptPoll := ⟨0, false, false, false, false, false⟩

/-- Taking the wake and starting to poll. -/
def start (task : Nat) : AcceptPoll := ⟨task, false, true, false, false, false⟩

/-- The future left its await point; the poll goes on unless the future is complete. -/
def proceed (p : AcceptPoll) (running : Bool) : AcceptPoll :=
  ⟨p.task, p.woken, running, false, false, false⟩

/-- Every branch has been polled, so that the poll returns `Pending`. -/
def exhausted (p : AcceptPoll) : AcceptPoint → Bool
  | .waiting => p.lockPolled
  | .selecting => p.recvPolled && p.closedPolled
  | _ => false

end AcceptPoll

inductive AcceptWait where
  | lock
  | recv
  | closed

/-- The wakers are tasks: one for each waiter of a lock, one for each channel, and
one in the watch for each future that listens to it. -/
structure AcceptTasks (κ : Type u) where
  sys : Streams κ
  polls : Nat → AcceptPoll
  lockWaker : Nat → Option Nat
  recvWaker : Dir → Option Nat
  closedWakers : List (Nat × Nat)

inductive AcceptTasksEvent (κ : Type u) where
  | accept (id : Nat) (dir : Dir)
  | start (id task : Nat)
  | advance (id : Nat) (branch : Branch)
  | register (id : Nat) (wait : AcceptWait)
  | suspend (id : Nat)
  | drop (id : Nat)
  | other (e : StreamsEvent κ)

namespace AcceptTasks

def init (conn : κ) (remoteAddr : SocketAddr) (isServer : Bool) : AcceptTasks κ where
  sys := .init conn remoteAddr isServer
  polls := fun _ => .fresh
  lockWaker := fun _ => none
  recvWaker := fun _ => none
  closedWakers := []

def setPoll (s : AcceptTasks κ) (id : Nat) (p : AcceptPoll) : AcceptTasks κ :=
  { s with polls := Function.update s.polls id p }

def wake (s : AcceptTasks κ) (tasks : List Nat) : AcceptTasks κ :=
  { s with
    polls := fun id =>
      if (s.polls id).task ∈ tasks then { s.polls id with woken := true } else s.polls id }

/-- The lock of `dir` was `before`. Who got it from another holder is woken. -/
def handOver (s : AcceptTasks κ) (before : Mutex Nat) (dir : Dir) : AcceptTasks κ :=
  match before.holder, (s.sys.bridge.cn.acceptLock dir).holder with
  | some v, some w =>
    if v = w then s
    else { s.wake (s.lockWaker w).toList with lockWaker := Function.update s.lockWaker w none }
  | _, _ => s

/-- The futures of the await point are dropped, and with them the wakers they left
with the lock and with the watch. The channel keeps its waker. -/
def unregister (s : AcceptTasks κ) (id : Nat) : AcceptTasks κ :=
  { s with
    lockWaker := Function.update s.lockWaker id none
    closedWakers := s.closedWakers.filter fun w => w.1 ≠ id }

def register (s : AcceptTasks κ) (id : Nat) (f : AcceptFuture) :
    AcceptWait → Option (AcceptTasks κ)
  | .lock =>
    if f.point = .waiting ∧ (s.sys.bridge.cn.acceptLock f.dir).holder ≠ some id then
      some ({ s with lockWaker := Function.update s.lockWaker id (some (s.polls id).task) }.setPoll
        id { s.polls id with lockPolled := true })
    else none
  | .recv =>
    if f.point = .selecting ∧ s.sys.bridge.cn.acceptQueue f.dir = [] then
      some ({ s with recvWaker := Function.update s.recvWaker f.dir (some (s.polls id).task) }.setPoll
        id { s.polls id with recvPolled := true })
    else none
  | .closed =>
    if f.point = .selecting ∧ s.sys.bridge.cn.closed = none then
      some ({ s with closedWakers := (id, (s.polls id).task) ::
        s.closedWakers.filter fun w => w.1 ≠ id }.setPoll
          id { s.polls id with closedPolled := true })
    else none

/-- What the next operation of the running callback wakes. -/
def notify (s : AcceptTasks κ) : List SharedOp → AcceptTasks κ
  | .queueAccept dir _ :: _ =>
    { s.wake (s.recvWaker dir).toList with recvWaker := Function.update s.recvWaker dir none }
  | .sendClosed _ :: _ => { s.wake (s.closedWakers.map Prod.snd) with closedWakers := [] }
  | _ => s

def step (T : Tquic κ) (s : AcceptTasks κ) : AcceptTasksEvent κ → Option (AcceptTasks κ)
  | .accept id dir =>
    match s.sys.step T (.accept id dir) with
    | some sys => some ({ s with sys := sys }.setPoll id .fresh)
    | none => none
  | .start id task =>
    match s.sys.accepts id with
    | some _ => if (s.polls id).running then none else some (s.setPoll id (.start task))
    | none => none
  | .advance id branch =>
    match s.sys.accepts id, s.sys.step T (.pollAccept id branch) with
    | some f, some sys =>
      if (s.polls id).running then
        some ((({ s with sys := sys }.unregister id).setPoll id
          ((s.polls id).proceed (sys.accepts id).isSome)).handOver
            (s.sys.bridge.cn.acceptLock f.dir) f.dir)
      else none
    | _, _ => none
  | .register id wait =>
    match s.sys.accepts id with
    | some f => if (s.polls id).running then s.register id f wait else none
    | none => none
  | .suspend id =>
    match s.sys.accepts id with
    | some f =>
      if (s.polls id).running && (s.polls id).exhausted f.point then
        some (s.setPoll id { s.polls id with running := false })
      else none
    | none => none
  | .drop id =>
    match s.sys.accepts id, s.sys.step T (.dropAccept id) with
    | some f, some sys =>
      if (s.polls id).running then none
      else some (({ s with sys := sys }.unregister id).handOver
        (s.sys.bridge.cn.acceptLock f.dir) f.dir)
    | _, _ => none
  | .other e =>
    match s.sys.step T e with
    | some sys =>
      match e with
      | .accept _ _ | .pollAccept _ _ | .dropAccept _ => none
      | .bridge .exec => some ({ s with sys := sys }.notify s.sys.bridge.todo)
      | _ => some { s with sys := sys }
    | none => none

/-! ## Who sleeps is listening -/

def OnLock (s : AcceptTasks κ) (id : Nat) (f : AcceptFuture) : Prop :=
  (s.sys.bridge.cn.acceptLock f.dir).holder ≠ some id ∧
    s.lockWaker id = some (s.polls id).task

def OnRecv (s : AcceptTasks κ) (id : Nat) (f : AcceptFuture) : Prop :=
  s.recvWaker f.dir = some (s.polls id).task ∧ s.sys.bridge.cn.acceptQueue f.dir = []

def OnClosed (s : AcceptTasks κ) (id : Nat) : Prop :=
  (id, (s.polls id).task) ∈ s.closedWakers ∧ s.sys.bridge.cn.closed = none

/-- A future between two polls has polled all of its await point, and what it polled
has not become ready without waking it. -/
structure Listens (s : AcceptTasks κ) (id : Nat) (f : AcceptFuture) : Prop where
  rest : (s.polls id).running = false →
    f.point = .begin ∨ (s.polls id).exhausted f.point = true
  lock : f.point = .waiting → (s.polls id).lockPolled = true →
    (s.polls id).woken = true ∨ s.OnLock id f
  recv : f.point = .selecting → (s.polls id).recvPolled = true →
    (s.polls id).woken = true ∨ s.OnRecv id f
  closed : f.point = .selecting → (s.polls id).closedPolled = true →
    (s.polls id).woken = true ∨ s.OnClosed id

structure Alert (s : AcceptTasks κ) : Prop where
  inOrder : s.sys.InOrder
  lined : s.sys.Lined
  listens : ∀ id f, s.sys.accepts id = some f → s.Listens id f

/-- The poll is the same, but its task may have been woken. -/
def SamePoll (s s' : AcceptTasks κ) (id : Nat) : Prop :=
  s'.polls id = s.polls id ∨ s'.polls id = { s.polls id with woken := true }

theorem Listens.keep {s s' : AcceptTasks κ} {id : Nat} {f : AcceptFuture} (h : s.Listens id f)
    (hpoll : SamePoll s s' id)
    (hlock : f.point = .waiting → s.OnLock id f →
      (s'.polls id).woken = true ∨ s'.OnLock id f)
    (hrecv : f.point = .selecting → s.OnRecv id f →
      (s'.polls id).woken = true ∨ s'.OnRecv id f)
    (hclosed : f.point = .selecting → s.OnClosed id →
      (s'.polls id).woken = true ∨ s'.OnClosed id) : s'.Listens id f := by
  have hwoken : (s.polls id).woken = true → (s'.polls id).woken = true := by
    intro hw
    rcases hpoll with hp | hp <;> simp [hp, hw]
  have hflags : (s'.polls id).running = (s.polls id).running ∧
      (s'.polls id).exhausted = (s.polls id).exhausted ∧
      (s'.polls id).lockPolled = (s.polls id).lockPolled ∧
      (s'.polls id).recvPolled = (s.polls id).recvPolled ∧
      (s'.polls id).closedPolled = (s.polls id).closedPolled := by
    rcases hpoll with hp | hp <;> rw [hp] <;> exact ⟨rfl, rfl, rfl, rfl, rfl⟩
  obtain ⟨hrunning, hexhausted, hlockPolled, hrecvPolled, hclosedPolled⟩ := hflags
  constructor
  · rw [hrunning, hexhausted]
    exact h.rest
  · intro hpoint hp
    rw [hlockPolled] at hp
    exact (h.lock hpoint hp).elim (fun hw => Or.inl (hwoken hw)) (hlock hpoint)
  · intro hpoint hp
    rw [hrecvPolled] at hp
    exact (h.recv hpoint hp).elim (fun hw => Or.inl (hwoken hw)) (hrecv hpoint)
  · intro hpoint hp
    rw [hclosedPolled] at hp
    exact (h.closed hpoint hp).elim (fun hw => Or.inl (hwoken hw)) (hclosed hpoint)

/-- A poll that has only begun, or that left its await point, listens to nothing. -/
theorem Listens.awake {s : AcceptTasks κ} {id : Nat} {f : AcceptFuture}
    (hrunning : (s.polls id).running = true) (hlock : (s.polls id).lockPolled = false)
    (hrecv : (s.polls id).recvPolled = false) (hclosed : (s.polls id).closedPolled = false) :
    s.Listens id f := by
  constructor <;> simp [hrunning, hlock, hrecv, hclosed]

theorem Listens.same {s s' : AcceptTasks κ} {id : Nat} {f : AcceptFuture} (h : s.Listens id f)
    (hpoll : s'.polls id = s.polls id) (hcn : s'.sys.bridge.cn = s.sys.bridge.cn)
    (hlockWaker : s'.lockWaker id = s.lockWaker id)
    (hrecvWaker : f.point = .selecting → s'.recvWaker f.dir = s.recvWaker f.dir)
    (hclosedWakers : ∀ task, (id, task) ∈ s.closedWakers → (id, task) ∈ s'.closedWakers) :
    s'.Listens id f := by
  refine h.keep (Or.inl hpoll) (fun _ hon => Or.inr ?_) (fun hpoint hon => Or.inr ?_)
    (fun _ hon => Or.inr ?_)
  · rw [OnLock, hpoll, hcn, hlockWaker]
    exact hon
  · rw [OnRecv, hpoll, hcn, hrecvWaker hpoint]
    exact hon
  · rw [OnClosed, hpoll, hcn]
    exact ⟨hclosedWakers _ hon.1, hon.2⟩

theorem wake_same (s : AcceptTasks κ) (tasks : List Nat) (id : Nat) :
    SamePoll s (s.wake tasks) id := by
  simp only [SamePoll, wake]
  split
  · exact Or.inr rfl
  · exact Or.inl rfl

theorem wake_woken {s : AcceptTasks κ} {tasks : List Nat} {id : Nat}
    (h : (s.polls id).task ∈ tasks) : ((s.wake tasks).polls id).woken = true := by
  simp [wake, h]

theorem SamePoll.task {s s' : AcceptTasks κ} {id : Nat} (h : SamePoll s s' id) :
    (s'.polls id).task = (s.polls id).task := by
  rcases h with h | h <;> rw [h]

theorem handOver_sys (s : AcceptTasks κ) (before : Mutex Nat) (dir : Dir) :
    (s.handOver before dir).sys = s.sys := by
  unfold handOver
  split
  · split <;> rfl
  · rfl

theorem handOver_frame (s : AcceptTasks κ) (before : Mutex Nat) (dir : Dir) (id : Nat) :
    SamePoll s (s.handOver before dir) id ∧ (s.handOver before dir).recvWaker = s.recvWaker ∧
      (s.handOver before dir).closedWakers = s.closedWakers ∧
      ((s.handOver before dir).lockWaker id = s.lockWaker id ∨
        (s.lockWaker id = some (s.polls id).task →
          ((s.handOver before dir).polls id).woken = true)) := by
  unfold handOver
  split
  · rename_i v w hv hw
    split
    · exact ⟨Or.inl rfl, rfl, rfl, Or.inl rfl⟩
    · refine ⟨s.wake_same _ id, rfl, rfl, ?_⟩
      by_cases hid : id = w
      · subst hid
        exact Or.inr fun h => wake_woken (by simp [h])
      · exact Or.inl (Function.update_of_ne hid ..)
  · exact ⟨Or.inl rfl, rfl, rfl, Or.inl rfl⟩

theorem handOver_woken {s : AcceptTasks κ} {before : Mutex Nat} {dir : Dir} {v id : Nat}
    (hbefore : before.holder = some v) (hne : v ≠ id)
    (hafter : (s.sys.bridge.cn.acceptLock dir).holder = some id)
    (hwaker : s.lockWaker id = some (s.polls id).task) :
    ((s.handOver before dir).polls id).woken = true := by
  simp only [handOver, hbefore, hafter, if_neg hne]
  exact wake_woken (by simp [hwaker])

theorem Listens.other {s t : AcceptTasks κ} {id id' : Nat} {f g : AcceptFuture} (hs : s.Alert)
    (hg : s.sys.accepts id' = some g) (hown : s.sys.OwnStep id f.dir t.sys)
    (hpoll : t.polls id' = s.polls id') (hlockWaker : t.lockWaker id' = s.lockWaker id')
    (hrecvWaker : t.recvWaker = s.recvWaker)
    (hclosedWakers : ∀ task, (id', task) ∈ s.closedWakers → (id', task) ∈ t.closedWakers) :
    (t.handOver (s.sys.bridge.cn.acceptLock f.dir) f.dir).Listens id' g := by
  obtain ⟨hsame, hrecv, hclosed, hlock⟩ :=
    t.handOver_frame (s.sys.bridge.cn.acceptLock f.dir) f.dir id'
  have hsys := t.handOver_sys (s.sys.bridge.cn.acceptLock f.dir) f.dir
  have htask := hsame.task.trans (congrArg _ hpoll)
  refine (hs.listens id' g hg).keep ?_ (fun hpoint hon => ?_) (fun _ hon => Or.inr ?_)
    (fun _ hon => Or.inr ?_)
  · simpa only [SamePoll, hpoll] using hsame
  · by_cases hgot : (t.sys.bridge.cn.acceptLock g.dir).holder = some id'
    · left
      have hdir : g.dir = f.dir := by
        by_contra hne
        exact hon.1 (by rw [← hown.lock _ hne]; exact hgot)
      have hin : id' ∈ (s.sys.bridge.cn.acceptLock g.dir).line :=
        (hs.lined.inLine g.dir id').mpr ⟨.waiting, by rw [hg, ← hpoint], trivial⟩
      obtain ⟨v, hv⟩ := Mutex.holder_of_mem_line hin
      refine handOver_woken (v := v) (hdir ▸ hv) ?_ (hdir ▸ hgot)
        (by rw [hlockWaker, hpoll]; exact hon.2)
      rintro rfl
      exact hon.1 hv
    · rcases hlock with hlock | hwoken
      · right
        rw [OnLock, hsys, hlock, htask, hlockWaker]
        exact ⟨hgot, hon.2⟩
      · exact Or.inl (hwoken (by rw [hlockWaker, hpoll]; exact hon.2))
  · rw [OnRecv, hsys, hrecv, htask, hrecvWaker]
    exact ⟨hon.1, hown.queue _ hon.2⟩
  · rw [OnClosed, hsys, hclosed, htask, hown.closed]
    exact ⟨hclosedWakers _ hon.1, hon.2⟩

/-! ## The events -/

theorem step_accept {T : Tquic κ} {s s' : AcceptTasks κ} {id : Nat} {dir : Dir}
    (h : s.step T (.accept id dir) = some s') :
    ∃ sys, s.sys.step T (.accept id dir) = some sys ∧
      s' = { s with sys := sys }.setPoll id .fresh := by
  simp only [step] at h
  split at h
  · exact ⟨_, ‹_›, (Option.some.inj h).symm⟩
  · simp at h

theorem step_start {T : Tquic κ} {s s' : AcceptTasks κ} {id task : Nat}
    (h : s.step T (.start id task) = some s') :
    ∃ f, s.sys.accepts id = some f ∧ s' = s.setPoll id (.start task) := by
  simp only [step] at h
  split at h
  · split at h
    · simp at h
    · exact ⟨_, ‹_›, (Option.some.inj h).symm⟩
  · simp at h

theorem step_advance {T : Tquic κ} {s s' : AcceptTasks κ} {id : Nat} {branch : Branch}
    (h : s.step T (.advance id branch) = some s') :
    ∃ f sys, s.sys.accepts id = some f ∧ s.sys.step T (.pollAccept id branch) = some sys ∧
      s' = (({ s with sys := sys }.unregister id).setPoll id
        ((s.polls id).proceed (sys.accepts id).isSome)).handOver
          (s.sys.bridge.cn.acceptLock f.dir) f.dir := by
  simp only [step] at h
  split at h
  · split at h
    · exact ⟨_, _, ‹_›, ‹_›, (Option.some.inj h).symm⟩
    · simp at h
  · simp at h

theorem step_drop {T : Tquic κ} {s s' : AcceptTasks κ} {id : Nat}
    (h : s.step T (.drop id) = some s') :
    ∃ f sys, s.sys.accepts id = some f ∧ s.sys.step T (.dropAccept id) = some sys ∧
      s' = ({ s with sys := sys }.unregister id).handOver
        (s.sys.bridge.cn.acceptLock f.dir) f.dir := by
  simp only [step] at h
  split at h
  · split at h
    · simp at h
    · exact ⟨_, _, ‹_›, ‹_›, (Option.some.inj h).symm⟩
  · simp at h

theorem step_other {T : Tquic κ} {s s' : AcceptTasks κ} {e : StreamsEvent κ}
    (h : s.step T (.other e) = some s') :
    ∃ sys, s.sys.step T e = some sys ∧ ¬ Streams.TouchesAccept e ∧
      ((e ≠ .bridge .exec ∧ s' = { s with sys := sys }) ∨
        (e = .bridge .exec ∧ s' = { s with sys := sys }.notify s.sys.bridge.todo)) := by
  simp only [step] at h
  split at h
  · rename_i sys hsys
    refine ⟨sys, hsys, ?_⟩
    split at h
    · simp at h
    · simp at h
    · simp at h
    · exact ⟨nofun, Or.inr ⟨rfl, (Option.some.inj h).symm⟩⟩
    · rename_i h1 h2 h3 h4
      refine ⟨?_, Or.inl ⟨h4, (Option.some.inj h).symm⟩⟩
      cases e with
      | accept id dir => exact absurd rfl (h1 id dir)
      | pollAccept id branch => exact absurd rfl (h2 id branch)
      | dropAccept id => exact absurd rfl (h3 id)
      | _ => exact nofun
  · simp at h

theorem setPoll_polls (s : AcceptTasks κ) (id id' : Nat) (p : AcceptPoll) :
    (s.setPoll id p).polls id' = if id' = id then p else s.polls id' := by
  simp [setPoll, Function.update_apply]

theorem Alert.accept {T : Tquic κ} {s : AcceptTasks κ} {sys : Streams κ} {id : Nat} {dir : Dir}
    (hs : s.Alert) (hstep : s.sys.step T (.accept id dir) = some sys) :
    ({ s with sys := sys }.setPoll id .fresh).Alert := by
  refine ⟨Streams.inOrder_step hs.inOrder hstep,
    Streams.lined_step hs.lined hs.inOrder.held hstep, fun id' g hg => ?_⟩
  obtain ⟨_, rfl⟩ := Streams.step_accept hstep
  by_cases hid : id' = id
  · subst hid
    obtain rfl : ⟨dir, .begin⟩ = g := by simpa [setPoll, Streams.setAccept] using hg
    refine ⟨fun _ => Or.inl rfl, ?_, ?_, ?_⟩ <;> intro h <;> cases h
  · have hg₀ : s.sys.accepts id' = some g := (Function.update_of_ne hid ..).symm.trans hg
    exact (hs.listens id' g hg₀).same (by simp [setPoll_polls, hid]) rfl rfl (fun _ => rfl)
      (fun _ h => h)

/-- One future is polled: its own poll changes, and the wakers it leaves. -/
theorem Alert.poll {s s' : AcceptTasks κ} {id : Nat} {f : AcceptFuture} {p : AcceptPoll}
    (hs : s.Alert) (hsys : s'.sys = s.sys) (hf : s.sys.accepts id = some f)
    (hpolls : s'.polls = Function.update s.polls id p)
    (hlockWaker : ∀ id', id' ≠ id → s'.lockWaker id' = s.lockWaker id')
    (hrecvWaker : s'.recvWaker = s.recvWaker ∨
      (f.point = .selecting ∧ ∀ d, d ≠ f.dir → s'.recvWaker d = s.recvWaker d))
    (hclosedWakers : ∀ id' task, id' ≠ id → (id', task) ∈ s.closedWakers →
      (id', task) ∈ s'.closedWakers)
    (hself : s'.Listens id f) : s'.Alert := by
  refine ⟨hsys ▸ hs.inOrder, hsys ▸ hs.lined, fun id' g hg => ?_⟩
  rw [hsys] at hg
  by_cases hid : id' = id
  · subst hid
    obtain rfl : f = g := Option.some.inj (hf.symm.trans hg)
    exact hself
  · refine (hs.listens id' g hg).same (by rw [hpolls, Function.update_of_ne hid]) (by rw [hsys])
      (hlockWaker id' hid) (fun hpoint => ?_) (fun task => hclosedWakers id' task hid)
    rcases hrecvWaker with hrecvWaker | ⟨hselecting, hother⟩
    · rw [hrecvWaker]
    · apply hother
      intro hdir
      -- both would hold the lock of this direction
      exact hid (hs.inOrder.held.unique hg hf (by rw [hpoint]; trivial)
        (by rw [hselecting]; trivial) hdir)

theorem Alert.start {s : AcceptTasks κ} {id task : Nat} {f : AcceptFuture} (hs : s.Alert)
    (hf : s.sys.accepts id = some f) : (s.setPoll id (.start task)).Alert := by
  refine hs.poll rfl hf rfl (fun _ _ => rfl) (Or.inl rfl) (fun _ _ _ h => h) ?_
  apply Listens.awake <;> simp [setPoll_polls, AcceptPoll.start]

theorem Alert.suspend {s : AcceptTasks κ} {id : Nat} {f : AcceptFuture} (hs : s.Alert)
    (hf : s.sys.accepts id = some f) (hexhausted : (s.polls id).exhausted f.point = true) :
    (s.setPoll id { s.polls id with running := false }).Alert := by
  refine hs.poll rfl hf rfl (fun _ _ => rfl) (Or.inl rfl) (fun _ _ _ h => h) ?_
  have hself := hs.listens id f hf
  have hpoll : (s.setPoll id { s.polls id with running := false }).polls id =
      { s.polls id with running := false } := by simp [setPoll_polls]
  constructor
  · intro _
    rw [hpoll]
    exact Or.inr hexhausted
  · rw [OnLock, hpoll]
    exact hself.lock
  · rw [OnRecv, hpoll]
    exact hself.recv
  · rw [OnClosed, hpoll]
    exact hself.closed

theorem Alert.register {s s' : AcceptTasks κ} {id : Nat} {f : AcceptFuture} {wait : AcceptWait}
    (hs : s.Alert) (hf : s.sys.accepts id = some f) (hrunning : (s.polls id).running = true)
    (hregister : s.register id f wait = some s') : s'.Alert := by
  have hself := hs.listens id f hf
  cases wait with
  | lock =>
    simp only [AcceptTasks.register, Option.ite_none_right_eq_some, Option.some.injEq] at hregister
    obtain ⟨⟨hpoint, hholder⟩, rfl⟩ := hregister
    refine hs.poll rfl hf rfl (fun id' hid => Function.update_of_ne hid ..) (Or.inl rfl)
      (fun _ _ _ h => h) ?_
    constructor
    · simp [setPoll_polls, hrunning]
    · intro _ _
      right
      exact ⟨hholder, by simp [setPoll]⟩
    · simp [hpoint]
    · simp [hpoint]
  | recv =>
    simp only [AcceptTasks.register, Option.ite_none_right_eq_some, Option.some.injEq] at hregister
    obtain ⟨⟨hpoint, hqueue⟩, rfl⟩ := hregister
    refine hs.poll rfl hf rfl (fun _ _ => rfl)
      (Or.inr ⟨hpoint, fun d hd => Function.update_of_ne hd ..⟩) (fun _ _ _ h => h) ?_
    constructor
    · simp [setPoll_polls, hrunning]
    · simp [hpoint]
    · intro _ _
      right
      exact ⟨by simp [setPoll], hqueue⟩
    · intro _ hp
      simpa [setPoll_polls, OnClosed, setPoll] using hself.closed hpoint
        (by simpa [setPoll_polls] using hp)
  | closed =>
    simp only [AcceptTasks.register, Option.ite_none_right_eq_some, Option.some.injEq] at hregister
    obtain ⟨⟨hpoint, hclosed⟩, rfl⟩ := hregister
    refine hs.poll rfl hf rfl (fun _ _ => rfl) (Or.inl rfl) (fun id' task hid h => ?_) ?_
    · exact List.mem_cons_of_mem _ (List.mem_filter.mpr ⟨h, by simpa using hid⟩)
    · constructor
      · simp [setPoll_polls, hrunning]
      · simp [hpoint]
      · intro _ hp
        simpa [setPoll_polls, OnRecv, setPoll] using hself.recv hpoint
          (by simpa [setPoll_polls] using hp)
      · intro _ _
        right
        exact ⟨by simp [setPoll], hclosed⟩

theorem Alert.advance {T : Tquic κ} {s : AcceptTasks κ} {sys : Streams κ} {id : Nat}
    {branch : Branch} {f : AcceptFuture} (hs : s.Alert) (hf : s.sys.accepts id = some f)
    (hstep : s.sys.step T (.pollAccept id branch) = some sys) :
    ((({ s with sys := sys }.unregister id).setPoll id
      ((s.polls id).proceed (sys.accepts id).isSome)).handOver
        (s.sys.bridge.cn.acceptLock f.dir) f.dir).Alert := by
  have hinOrder := Streams.inOrder_step hs.inOrder hstep
  have hlined := Streams.lined_step hs.lined hs.inOrder.held hstep
  obtain ⟨f₀, hf₀, hpoll⟩ := Streams.step_pollAccept hstep
  obtain rfl : f = f₀ := Option.some.inj (hf.symm.trans hf₀)
  have hown := Streams.pollAccept_own hpoll
  refine ⟨by rw [handOver_sys]; exact hinOrder, by rw [handOver_sys]; exact hlined,
    fun id' g hg => ?_⟩
  rw [handOver_sys] at hg
  by_cases hid : id' = id
  · subst hid
    have hg' : sys.accepts id' = some g := hg
    have hrunning : (s.polls id').proceed (sys.accepts id').isSome =
        (s.polls id').proceed true := by rw [hg']; rfl
    rw [hrunning]
    have hsame := ((({ s with sys := sys }.unregister id').setPoll id'
      ((s.polls id').proceed true)).handOver_frame (s.sys.bridge.cn.acceptLock f.dir) f.dir id').1
    apply Listens.awake <;> rcases hsame with hsame | hsame <;> rw [hsame] <;>
      simp [setPoll_polls, AcceptPoll.proceed]
  · refine Listens.other hs ((hown.accepts id' hid).symm.trans hg) hown
      (by simp [setPoll_polls, hid, unregister]) (Function.update_of_ne hid ..) rfl
      (fun task h => ?_)
    exact List.mem_filter.mpr ⟨h, by simpa using hid⟩

theorem Alert.drop {T : Tquic κ} {s : AcceptTasks κ} {sys : Streams κ} {id : Nat}
    {f : AcceptFuture} (hs : s.Alert) (hf : s.sys.accepts id = some f)
    (hstep : s.sys.step T (.dropAccept id) = some sys) :
    (({ s with sys := sys }.unregister id).handOver
      (s.sys.bridge.cn.acceptLock f.dir) f.dir).Alert := by
  have hinOrder := Streams.inOrder_step hs.inOrder hstep
  have hlined := Streams.lined_step hs.lined hs.inOrder.held hstep
  obtain ⟨f₀, hf₀, hdrop⟩ := Streams.step_dropAccept hstep
  obtain rfl : f = f₀ := Option.some.inj (hf.symm.trans hf₀)
  have hown := Streams.dropAccept_own hdrop
  refine ⟨by rw [handOver_sys]; exact hinOrder, by rw [handOver_sys]; exact hlined,
    fun id' g hg => ?_⟩
  rw [handOver_sys] at hg
  have hid : id' ≠ id := by
    rintro rfl
    have hgone : sys.accepts id' = none := Streams.dropAccept_gone hdrop
    rw [show sys.accepts id' = some g from hg] at hgone
    simp at hgone
  refine Listens.other hs ((hown.accepts id' hid).symm.trans hg) hown rfl
    (Function.update_of_ne hid ..) rfl (fun task h => ?_)
  exact List.mem_filter.mpr ⟨h, by simpa using hid⟩

theorem notify_sys (s : AcceptTasks κ) (todo : List SharedOp) : (s.notify todo).sys = s.sys := by
  unfold notify
  split <;> rfl

theorem notify_frame (s : AcceptTasks κ) (todo : List SharedOp) (id : Nat) :
    SamePoll s (s.notify todo) id ∧ (s.notify todo).lockWaker = s.lockWaker := by
  unfold notify
  split
  · exact ⟨s.wake_same _ id, rfl⟩
  · exact ⟨s.wake_same _ id, rfl⟩
  · exact ⟨Or.inl rfl, rfl⟩

theorem notify_recv {s : AcceptTasks κ} {op : SharedOp} {todo : List SharedOp} {dir : Dir}
    (hop : ∀ streamId, op ≠ .queueAccept dir streamId) :
    (s.notify (op :: todo)).recvWaker dir = s.recvWaker dir := by
  cases op with
  | queueAccept d streamId =>
    have hd : dir ≠ d := fun heq => hop streamId (by rw [heq])
    exact Function.update_of_ne hd ..
  | _ => rfl

theorem notify_closed {s : AcceptTasks κ} {op : SharedOp} {todo : List SharedOp}
    (hop : ∀ error, op ≠ .sendClosed error) :
    (s.notify (op :: todo)).closedWakers = s.closedWakers := by
  cases op with
  | sendClosed error => exact absurd rfl (hop error)
  | _ => rfl

theorem Listens.exec {s : AcceptTasks κ} {sys : Streams κ} {op : SharedOp}
    {todo : List SharedOp} {id : Nat} {f : AcceptFuture} (h : s.Listens id f)
    (hcn : sys.bridge.cn = (op.exec s.sys.bridge.cn).1) :
    ({ s with sys := sys }.notify (op :: todo)).Listens id f := by
  obtain ⟨hsame, hlockWaker⟩ := { s with sys := sys }.notify_frame (op :: todo) id
  have htask : (({ s with sys := sys }.notify (op :: todo)).polls id).task = (s.polls id).task :=
    hsame.task
  refine h.keep hsame (fun _ hon => Or.inr ?_) (fun _ hon => ?_) (fun _ hon => ?_)
  · rw [OnLock, notify_sys, hlockWaker, htask, hcn, (exec_accept s.sys.bridge.cn op [] f.dir).2.1]
    exact hon
  · by_cases hop : ∃ streamId, op = .queueAccept f.dir streamId
    · obtain ⟨streamId, rfl⟩ := hop
      exact Or.inl (wake_woken (by simp [hon.1]))
    · right
      have hop' : ∀ streamId, op ≠ .queueAccept f.dir streamId := fun i heq => hop ⟨i, heq⟩
      rw [OnRecv, notify_sys, notify_recv hop', htask, hcn, exec_queue hop']
      exact hon
  · by_cases hop : ∃ error, op = .sendClosed error
    · obtain ⟨error, rfl⟩ := hop
      exact Or.inl (wake_woken (List.mem_map.mpr ⟨_, hon.1, rfl⟩))
    · right
      have hop' : ∀ error, op ≠ .sendClosed error := fun e heq => hop ⟨e, heq⟩
      rw [OnClosed, notify_sys, notify_closed hop', htask, hcn, SharedOp.exec_watch hop']
      exact hon

theorem Alert.other {T : Tquic κ} {s s' : AcceptTasks κ} {e : StreamsEvent κ} (hs : s.Alert)
    (hstep : s.step T (.other e) = some s') : s'.Alert := by
  obtain ⟨sys, hsys, he, hs'⟩ := step_other hstep
  have hinOrder := Streams.inOrder_step hs.inOrder hsys
  have hlined := Streams.lined_step hs.lined hs.inOrder.held hsys
  obtain ⟨haccepts, ⟨hexec, hcn⟩ | ⟨op, todo, hexec, htodo, hcn⟩⟩ := Streams.step_others he hsys
  · obtain ⟨_, rfl⟩ | ⟨hexec', _⟩ := hs'
    · refine ⟨hinOrder, hlined, fun id g hg => ?_⟩
      exact (hs.listens id g (haccepts ▸ hg)).same rfl hcn rfl (fun _ => rfl) (fun _ h => h)
    · exact absurd hexec' hexec
  · obtain ⟨hexec', _⟩ | ⟨_, rfl⟩ := hs'
    · exact absurd hexec hexec'
    · refine ⟨by rw [notify_sys]; exact hinOrder, by rw [notify_sys]; exact hlined,
        fun id g hg => ?_⟩
      rw [notify_sys] at hg
      rw [htodo]
      exact (hs.listens id g (haccepts ▸ hg)).exec hcn

def Pending (s : AcceptTasks κ) (dir : Dir) (id : Nat) : Prop :=
  ∃ point : AcceptPoint, s.sys.accepts id = some ⟨dir, point⟩ ∧ point ≠ .begin ∧
    (s.polls id).running = false

/-- When some future is pending, no task of a pending future has a wake outstanding
and the lock's holder is not in the middle of a poll, there is nothing to accept and
the connection is open. -/
def Attended (s : AcceptTasks κ) (dir : Dir) : Prop :=
  (∃ id, s.Pending dir id) →
    (∀ id, s.Pending dir id → (s.polls id).woken = false) →
    (∀ id, (s.sys.bridge.cn.acceptLock dir).holder = some id → (s.polls id).running = false) →
    s.sys.bridge.cn.acceptQueue dir = [] ∧ s.sys.bridge.cn.closed = none

theorem Alert.pending {s : AcceptTasks κ} {dir : Dir} {id : Nat} (hs : s.Alert)
    (h : s.Pending dir id) :
    (s.sys.accepts id = some ⟨dir, .waiting⟩ ∧ (s.polls id).lockPolled = true) ∨
      (s.sys.accepts id = some ⟨dir, .selecting⟩ ∧ (s.polls id).recvPolled = true ∧
        (s.polls id).closedPolled = true) := by
  obtain ⟨point, hf, hbegin, hrunning⟩ := h
  obtain hpoint | hexhausted := (hs.listens id _ hf).rest hrunning
  · exact absurd hpoint hbegin
  · cases point with
    | waiting => exact Or.inl ⟨hf, hexhausted⟩
    | selecting => exact Or.inr ⟨hf, by simpa [AcceptPoll.exhausted] using hexhausted⟩
    | _ => simp [AcceptPoll.exhausted] at hexhausted

end AcceptTasks

end TokioTquic
