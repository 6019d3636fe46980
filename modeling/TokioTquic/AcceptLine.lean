import TokioTquic.Accept

/-!
# The line at the receiver's lock

Whoever polled an accept future up to the lock stands in the line of its
direction until the future completes or is dropped, and nobody else does.
-/

namespace TokioTquic
open Async
set_option autoImplicit false

universe u
variable {κ : Type u}

def AcceptPoint.InLine : AcceptPoint → Prop
  | .waiting | .selecting | .taken _ | .changed => True
  | _ => False

theorem exec_queue {cn : ConnNotify} {op : SharedOp} {dir : Dir}
    (hop : ∀ streamId, op ≠ .queueAccept dir streamId) :
    (op.exec cn).1.acceptQueue dir = cn.acceptQueue dir := by
  have hbooks := (exec_accept cn op [] dir).1
  have hmore : pendingAccepts ((op.exec cn).2 ++ []) dir = [] := by
    apply List.filterMap_eq_nil_iff.mpr
    intro next hnext
    obtain ⟨g, _, rfl, _⟩ := SharedOp.mem_exec (by simpa using hnext)
    rfl
  have hown : pendingAccepts [op] dir = [] := by
    apply List.filterMap_eq_nil_iff.mpr
    intro next hnext
    obtain rfl := List.mem_singleton.mp hnext
    cases next with
    | queueAccept d streamId =>
      have hd : d ≠ dir := fun heq => hop streamId (by rw [heq])
      simp [hd]
    | _ => rfl
  rw [hmore, List.append_nil, hown, List.append_nil] at hbooks
  exact hbooks

namespace Streams

structure Lined (s : Streams κ) : Prop where
  inLine : ∀ dir id, id ∈ (s.bridge.cn.acceptLock dir).line ↔
    ∃ point : AcceptPoint, s.accepts id = some ⟨dir, point⟩ ∧ point.InLine
  nodup : ∀ dir, (s.bridge.cn.acceptLock dir).line.Nodup

/-- One future changes, and the others keep their places. -/
theorem Lined.set {s s' : Streams κ} (hs : s.Lined) (id : Nat) (f' : Option AcceptFuture)
    (haccepts : s'.accepts = Function.update s.accepts id f')
    (hself : ∀ dir, id ∈ (s'.bridge.cn.acceptLock dir).line ↔
      ∃ point : AcceptPoint, f' = some ⟨dir, point⟩ ∧ point.InLine)
    (hothers : ∀ dir id', id' ≠ id → (id' ∈ (s'.bridge.cn.acceptLock dir).line ↔
      id' ∈ (s.bridge.cn.acceptLock dir).line))
    (hnodup : ∀ dir, (s'.bridge.cn.acceptLock dir).line.Nodup) : s'.Lined := by
  refine ⟨fun dir id' => ?_, hnodup⟩
  rw [haccepts]
  by_cases hid : id' = id
  · subst hid
    simpa only [Function.update_self] using hself dir
  · simpa only [Function.update_of_ne hid] using (hothers dir id' hid).trans (hs.inLine dir id')

theorem Lined.stay {s s' : Streams κ} (hs : s.Lined) {id : Nat} {f f' : Option AcceptFuture}
    (hf : s.accepts id = f) (haccepts : s'.accepts = Function.update s.accepts id f')
    (hsame : ∀ dir, (∃ point : AcceptPoint, f = some ⟨dir, point⟩ ∧ point.InLine) ↔
      ∃ point : AcceptPoint, f' = some ⟨dir, point⟩ ∧ point.InLine)
    (hlock : ∀ dir, s'.bridge.cn.acceptLock dir = s.bridge.cn.acceptLock dir) : s'.Lined := by
  refine hs.set id f' haccepts (fun dir => ?_) (fun dir _ _ => by rw [hlock])
    (fun dir => by rw [hlock]; exact hs.nodup dir)
  rw [hlock, hs.inLine dir id, hf]
  exact hsame dir

theorem Lined.join {s : Streams κ} (hs : s.Lined) {id : Nat} {dir : Dir} {point : AcceptPoint}
    (hf : s.accepts id = some ⟨dir, .lock⟩) (hpoint : point.InLine) :
    ((s.setCn (s.bridge.cn.setAcceptLock ((s.bridge.cn.acceptLock dir).lock id) dir)).setAccept
      id (some ⟨dir, point⟩)).Lined := by
  have hout : ∀ d, id ∉ (s.bridge.cn.acceptLock d).line := by
    intro d hin
    obtain ⟨p, hp, hinline⟩ := (hs.inLine d id).mp hin
    rw [hf] at hp
    cases hp
    exact hinline
  have hline : ∀ d, (((s.setCn (s.bridge.cn.setAcceptLock ((s.bridge.cn.acceptLock dir).lock id)
      dir)).setAccept id (some ⟨dir, point⟩)).bridge.cn.acceptLock d).line =
      (s.bridge.cn.acceptLock d).line ++ if d = dir then [id] else [] := by
    intro d
    by_cases hd : d = dir
    · subst hd
      simp [Mutex.line_lock]
    · simp [hd]
  refine hs.set id _ rfl (fun d => ?_) (fun d id' hid => ?_) (fun d => ?_)
  · rw [hline]
    by_cases hd : d = dir
    · subst hd
      simp [hpoint]
    · simp [hout d, hd, Ne.symm hd]
  · rw [hline]
    by_cases hd : d = dir <;> simp [hd, hid]
  · rw [hline]
    by_cases hd : d = dir
    · subst hd
      simp only [if_pos]
      exact List.nodup_append.mpr ⟨hs.nodup d, by simp, by
        rintro a ha b hb rfl
        exact hout d (List.mem_singleton.mp hb ▸ ha)⟩
    · simpa [hd] using hs.nodup d

theorem Lined.leave {s s' : Streams κ} (hs : s.Lined) {id : Nat} {dir : Dir}
    {point : AcceptPoint} {f' : Option AcceptFuture} {lock : Mutex Nat}
    (hf : s.accepts id = some ⟨dir, point⟩)
    (haccepts : s'.accepts = Function.update s.accepts id f')
    (hout : ∀ g ∈ f', ¬ g.point.InLine)
    (hcn : ∀ d, s'.bridge.cn.acceptLock d = if d = dir then lock else s.bridge.cn.acceptLock d)
    (hline : lock.line = (s.bridge.cn.acceptLock dir).line.erase id) : s'.Lined := by
  refine hs.set id f' haccepts (fun d => ?_) (fun d id' hid => ?_) (fun d => ?_)
  · constructor
    · intro hin
      exfalso
      rw [hcn] at hin
      by_cases hd : d = dir
      · subst hd
        rw [if_pos rfl, hline] at hin
        exact (hs.nodup d).not_mem_erase hin
      · rw [if_neg hd] at hin
        obtain ⟨p, hp, _⟩ := (hs.inLine d id).mp hin
        rw [hf] at hp
        cases hp
        exact hd rfl
    · rintro ⟨p, hp, hinline⟩
      exact absurd hinline (hout _ hp)
  · rw [hcn]
    by_cases hd : d = dir
    · subst hd
      rw [if_pos rfl, hline]
      exact List.mem_erase_of_ne hid
    · rw [if_neg hd]
  · rw [hcn]
    by_cases hd : d = dir
    · subst hd
      rw [if_pos rfl, hline]
      exact (hs.nodup d).erase id
    · rw [if_neg hd]
      exact hs.nodup d

theorem Lined.same {s s' : Streams κ} (hs : s.Lined) (haccepts : s'.accepts = s.accepts)
    (hlock : ∀ dir, s'.bridge.cn.acceptLock dir = s.bridge.cn.acceptLock dir) : s'.Lined :=
  ⟨fun dir id => by rw [hlock, haccepts]; exact hs.inLine dir id,
    fun dir => by rw [hlock]; exact hs.nodup dir⟩

theorem lined_pollAccept {s s' : Streams κ} {id : Nat} {f : AcceptFuture} {branch : Branch}
    (hs : s.Lined) (hheld : s.Held) (hf : s.accepts id = some f)
    (hstep : s.pollAccept id f.dir branch f.point = some s') : s'.Lined := by
  rcases f with ⟨dir, point⟩
  cases point with
  | begin =>
    cases hstep
    exact hs.stay hf rfl (fun d => by simp [AcceptPoint.InLine]) (fun _ => rfl)
  | check =>
    simp only [pollAccept] at hstep
    split at hstep <;> cases hstep <;>
      exact hs.stay hf rfl (fun d => by simp [AcceptPoint.InLine]) (fun _ => rfl)
  | lock =>
    simp only [pollAccept] at hstep
    split at hstep <;> cases hstep <;> exact hs.join hf trivial
  | waiting =>
    simp only [pollAccept] at hstep
    split at hstep
    · cases hstep
      exact hs.stay hf rfl (fun d => by simp [AcceptPoint.InLine]) (fun _ => rfl)
    · simp at hstep
  | selecting =>
    cases branch with
    | recv =>
      simp only [pollAccept] at hstep
      split at hstep
      · simp at hstep
      · cases hstep
        exact hs.stay hf rfl (fun d => by simp [AcceptPoint.InLine]) (fun d => by simp)
    | closed =>
      simp only [pollAccept] at hstep
      split at hstep
      · cases hstep
        exact hs.stay hf rfl (fun d => by simp [AcceptPoint.InLine]) (fun _ => rfl)
      · simp at hstep
  | taken streamId =>
    cases hstep
    have hholder : (s.bridge.cn.acceptLock dir).holder = some id := hheld id _ hf trivial
    exact hs.leave hf rfl (by simp) (fun d => ConnNotify.setAcceptLock_lock ..)
      (Mutex.line_release hholder)
  | changed =>
    have hholder : (s.bridge.cn.acceptLock dir).holder = some id := hheld id _ hf trivial
    simp only [pollAccept] at hstep
    split at hstep <;> cases hstep
    · exact hs.leave hf rfl (by simp) (fun d => ConnNotify.setAcceptLock_lock ..)
        (Mutex.line_release hholder)
    · exact hs.leave hf rfl (by simp [AcceptPoint.InLine])
        (fun d => ConnNotify.setAcceptLock_lock ..) (Mutex.line_release hholder)

theorem lined_dropAccept {s s' : Streams κ} {id : Nat} {f : AcceptFuture} (hs : s.Lined)
    (hheld : s.Held) (hf : s.accepts id = some f)
    (hstep : s.dropAccept id f.dir f.point = some s') : s'.Lined := by
  rcases f with ⟨dir, point⟩
  cases point with
  | begin =>
    cases hstep
    exact hs.stay hf rfl (fun d => by simp [AcceptPoint.InLine]) (fun _ => rfl)
  | waiting =>
    cases hstep
    exact hs.leave hf rfl (by simp) (fun d => ConnNotify.setAcceptLock_lock ..)
      (Mutex.line_abandon _ id)
  | selecting =>
    cases hstep
    have hholder : (s.bridge.cn.acceptLock dir).holder = some id := hheld id _ hf trivial
    exact hs.leave hf rfl (by simp) (fun d => ConnNotify.setAcceptLock_lock ..)
      (Mutex.line_release hholder)
  | check => simp [dropAccept] at hstep
  | lock => simp [dropAccept] at hstep
  | taken streamId => simp [dropAccept] at hstep
  | changed => simp [dropAccept] at hstep

/-- What leaves the accept futures and their locks alone. -/
def TouchesAccept : StreamsEvent κ → Prop
  | .accept _ _ | .pollAccept _ _ | .dropAccept _ => True
  | _ => False

theorem recordCreated_frame (s : Streams κ) (e : BridgeEvent κ) :
    (s.recordCreated e).accepts = s.accepts ∧ (s.recordCreated e).bridge = s.bridge := by
  unfold recordCreated
  split <;> exact ⟨rfl, rfl⟩

theorem step_others {T : Tquic κ} {s s' : Streams κ} {e : StreamsEvent κ}
    (he : ¬ TouchesAccept e) (hstep : s.step T e = some s') :
    s'.accepts = s.accepts ∧
      ((e ≠ .bridge .exec ∧ s'.bridge.cn = s.bridge.cn) ∨
        ∃ op todo, e = .bridge .exec ∧ s.bridge.todo = op :: todo ∧
          s'.bridge.cn = (op.exec s.bridge.cn).1) := by
  cases e with
  | process =>
    obtain ⟨cmd, b, reply, hp, rfl⟩ := step_process hstep
    have hsame := deliver_same { s with bridge := b } reply
    exact ⟨hsame.accepts, Or.inl ⟨nofun, hsame.cn.trans (Bridge.process_some hp).2.2.1⟩⟩
  | bridge e =>
    obtain ⟨b, hb, rfl⟩ := step_bridge hstep
    obtain ⟨haccepts, hbridge⟩ := recordCreated_frame { s with bridge := b } e
    refine ⟨haccepts, ?_⟩
    rw [hbridge]
    cases e with
    | engine conn =>
      obtain ⟨_, _, rfl⟩ := Bridge.step_engine hb
      exact Or.inl ⟨nofun, rfl⟩
    | callback cb =>
      obtain ⟨_, rfl⟩ := Bridge.step_callback hb
      exact Or.inl ⟨nofun, rfl⟩
    | exec =>
      obtain ⟨op, todo, htodo, rfl⟩ := Bridge.step_exec hb
      exact Or.inr ⟨op, todo, rfl, htodo, rfl⟩
  | accept id dir => exact absurd trivial he
  | pollAccept id branch => exact absurd trivial he
  | dropAccept id => exact absurd trivial he
  | openStream dir =>
    cases hstep
    exact ⟨rfl, Or.inl ⟨nofun, rfl⟩⟩
  | pollOpen id =>
    obtain ⟨f, _, hpoll⟩ := step_pollOpen hstep
    exact ⟨(pollOpen_same hpoll).accepts, Or.inl ⟨nofun, (pollOpen_same hpoll).cn⟩⟩
  | dropOpen id =>
    obtain ⟨f, _, hdrop⟩ := step_dropOpen hstep
    exact ⟨(dropOpen_same hdrop).accepts, Or.inl ⟨nofun, (dropOpen_same hdrop).cn⟩⟩

theorem lined_step {T : Tquic κ} {s s' : Streams κ} {e : StreamsEvent κ} (hs : s.Lined)
    (hheld : s.Held) (hstep : s.step T e = some s') : s'.Lined := by
  cases e with
  | accept id dir =>
    obtain ⟨hnone, rfl⟩ := step_accept hstep
    exact hs.stay hnone rfl (fun d => by simp [AcceptPoint.InLine]) (fun _ => rfl)
  | pollAccept id branch =>
    obtain ⟨f, hf, hpoll⟩ := step_pollAccept hstep
    exact lined_pollAccept hs hheld hf hpoll
  | dropAccept id =>
    obtain ⟨f, hf, hdrop⟩ := step_dropAccept hstep
    exact lined_dropAccept hs hheld hf hdrop
  | _ =>
    obtain ⟨haccepts, ⟨_, hcn⟩ | ⟨op, todo, _, _, hcn⟩⟩ := step_others (by exact nofun) hstep
    · exact hs.same haccepts (fun dir => by rw [hcn])
    · refine hs.same haccepts (fun dir => ?_)
      rw [hcn]
      exact (exec_accept s.bridge.cn op [] dir).2.1

structure OwnStep (s : Streams κ) (id : Nat) (dir : Dir) (s' : Streams κ) : Prop where
  accepts : ∀ id', id' ≠ id → s'.accepts id' = s.accepts id'
  lock : ∀ d, d ≠ dir → s'.bridge.cn.acceptLock d = s.bridge.cn.acceptLock d
  queue : ∀ d, s.bridge.cn.acceptQueue d = [] → s'.bridge.cn.acceptQueue d = []
  closed : s'.bridge.cn.closed = s.bridge.cn.closed

theorem OwnStep.ofLock {s s' : Streams κ} {id : Nat} {dir : Dir} {f' : Option AcceptFuture}
    {lock : Mutex Nat} (haccepts : s'.accepts = Function.update s.accepts id f')
    (hcn : s'.bridge.cn = s.bridge.cn.setAcceptLock lock dir) : s.OwnStep id dir s' where
  accepts := fun id' hid => by rw [haccepts, Function.update_of_ne hid]
  lock := fun d hd => by simp [hcn, hd]
  queue := fun d h => by simpa [hcn] using h
  closed := by rw [hcn]; cases dir <;> rfl

theorem OwnStep.ofAccept {s s' : Streams κ} {id : Nat} {dir : Dir} {f' : Option AcceptFuture}
    (haccepts : s'.accepts = Function.update s.accepts id f')
    (hcn : s'.bridge.cn = s.bridge.cn) : s.OwnStep id dir s' where
  accepts := fun id' hid => by rw [haccepts, Function.update_of_ne hid]
  lock := fun d _ => by rw [hcn]
  queue := fun d h => by rwa [hcn]
  closed := by rw [hcn]

theorem pollAccept_own {s s' : Streams κ} {id : Nat} {dir : Dir} {branch : Branch}
    {point : AcceptPoint} (hstep : s.pollAccept id dir branch point = some s') :
    s.OwnStep id dir s' := by
  cases pollAccept_cases hstep with
  | moved => exact .ofAccept rfl rfl
  | granted | queued => exact .ofLock rfl rfl
  | took hqueue =>
    refine ⟨fun id' hid => Function.update_of_ne hid .., fun d _ => by simp, fun d h => ?_, ?_⟩
    · by_cases hd : d = dir
      · subst hd
        simp [hqueue] at h
      · simpa [hd] using h
    · cases dir <;> rfl
  | returned => exact .ofLock rfl rfl
  | released => exact .ofLock rfl rfl

theorem dropAccept_own {s s' : Streams κ} {id : Nat} {dir : Dir} {point : AcceptPoint}
    (hstep : s.dropAccept id dir point = some s') : s.OwnStep id dir s' := by
  cases point with
  | begin =>
    cases hstep
    exact .ofAccept rfl rfl
  | waiting | selecting =>
    cases hstep
    exact .ofLock rfl rfl
  | check | lock | taken streamId | changed => simp [dropAccept] at hstep

theorem pollAccept_frame {s s' : Streams κ} {id : Nat} {dir : Dir} {branch : Branch}
    {point : AcceptPoint} (hstep : s.pollAccept id dir branch point = some s') :
    s'.opens = s.opens ∧ s'.bridge.todo = s.bridge.todo ∧ s'.bridge.queue = s.bridge.queue := by
  cases pollAccept_cases hstep <;> exact ⟨rfl, rfl, rfl⟩

theorem dropAccept_frame {s s' : Streams κ} {id : Nat} {dir : Dir} {point : AcceptPoint}
    (hstep : s.dropAccept id dir point = some s') :
    s'.opens = s.opens ∧ s'.bridge.todo = s.bridge.todo ∧ s'.bridge.queue = s.bridge.queue := by
  unfold dropAccept at hstep
  split at hstep <;> cases hstep <;> exact ⟨rfl, rfl, rfl⟩

theorem dropAccept_gone {s s' : Streams κ} {id : Nat} {dir : Dir} {point : AcceptPoint}
    (hstep : s.dropAccept id dir point = some s') : s'.accepts id = none := by
  cases point with
  | begin | waiting | selecting =>
    cases hstep
    exact Function.update_self ..
  | check | lock | taken streamId | changed => simp [dropAccept] at hstep

/-- Whoever holds the lock of a direction is the only one past it. -/
theorem Held.unique {s : Streams κ} (hs : s.Held) {id id' : Nat} {f f' : AcceptFuture}
    (hf : s.accepts id = some f) (hf' : s.accepts id' = some f') (hholds : f.point.Holds)
    (hholds' : f'.point.Holds) (hdir : f.dir = f'.dir) : id = id' := by
  have h := hs id f hf hholds
  rw [hdir, hs id' f' hf' hholds'] at h
  exact (Option.some.inj h).symm

end Streams

end TokioTquic
