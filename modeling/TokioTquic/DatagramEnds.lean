import TokioTquic.Datagrams
import TokioTquic.Bridge

/-!
# How a `ReadDatagram` ends

With the reason that was recorded for the connection, and never unnoticed: the
task of a poll is there until it has woken the poll's waker, and it can run as
soon as the reason is recorded.
-/

namespace TokioTquic
open Async
set_option autoImplicit false

namespace Datagrams
variable {endpointIsServer : Bool} {s t : Datagrams}

/-! ## What a future relies on -/

/-- What is known at a point of a future. -/
def Knows (s : Datagrams) (connId : Nat) : DatagramPoint → Prop
  | .borrow _ uid | .watch _ uid => (connId, uid) ∈ s.inserted
  | .pending waker uid since =>
    (connId, uid) ∈ s.inserted ∧ since ≤ s.woken.length ∧
      (⟨uid, 0, waker⟩ ∈ s.tasks ∨ waker ∈ s.woken.drop since)
  | .ready err => ∃ uid, (connId, uid) ∈ s.inserted ∧ (uid, err) ∈ s.reported
  | _ => True

/-- What no step takes back. A task that goes has woken its waker. -/
structure Grows (s t : Datagrams) : Prop where
  entries : ∀ connId, (s.thread.handle.connStates connId).isSome →
    (t.thread.handle.connStates connId).isSome
  inserted : ∀ x ∈ s.inserted, x ∈ t.inserted
  reported : ∀ x ∈ s.reported, x ∈ t.reported
  woken : ∃ more, t.woken = s.woken ++ more ∧
    ∀ task ∈ s.tasks, task ∈ t.tasks ∨ task.waker ∈ more

theorem Grows.keep (hentries : ∀ connId, (s.thread.handle.connStates connId).isSome →
      (t.thread.handle.connStates connId).isSome)
    (hinserted : ∀ x ∈ s.inserted, x ∈ t.inserted) (hreported : ∀ x ∈ s.reported, x ∈ t.reported)
    (htasks : t.tasks = s.tasks) (hwoken : t.woken = s.woken) : Grows s t := by
  refine ⟨hentries, hinserted, hreported, [], ?_, ?_⟩
  · rw [hwoken, List.append_nil]
  · intro task htask
    rw [htasks]
    exact Or.inl htask

theorem Knows.grow {connId : Nat} {p : DatagramPoint} (h : s.Knows connId p) (hst : Grows s t) :
    t.Knows connId p := by
  cases p with
  | idle | check | lookup | dropped => exact h
  | borrow | watch => exact hst.inserted _ h
  | ready err =>
    obtain ⟨uid, hin, hrep⟩ := h
    exact ⟨uid, hst.inserted _ hin, hst.reported _ hrep⟩
  | pending waker uid since =>
    obtain ⟨hin, hle, hwaits⟩ := h
    obtain ⟨more, hwoken, htasks⟩ := hst.woken
    have hdrop : t.woken.drop since = s.woken.drop since ++ more := by
      rw [hwoken, List.drop_append_of_le_length hle]
    refine ⟨hst.inserted _ hin, ?_, ?_⟩
    · rw [hwoken, List.length_append]
      omega
    · rw [hdrop]
      rcases hwaits with htask | hwoke
      · rcases htasks _ htask with hstill | hmore
        · exact Or.inl hstill
        · exact Or.inr (List.mem_append_right _ hmore)
      · exact Or.inr (List.mem_append_left _ hwoke)

/-- The channels and the futures of a run. -/
structure Sound (s : Datagrams) : Prop where
  value : ∀ uid, (s.watches uid).value = (s.thread.handle.notifies uid).closed
  begins : ∀ uid, (s.watches uid).Begins none
  inserting : ∀ connId uid cn, .insert connId uid cn ∈ s.thread.todo → cn.closed = none
  recorded : ∀ uid err, (s.thread.handle.notifies uid).closed = some err → (uid, err) ∈ s.reported
  listed : ∀ connId uid, s.thread.handle.connStates connId = some uid → (connId, uid) ∈ s.inserted
  named : ∀ f ∈ s.futures, (s.thread.handle.connStates f.connId).isSome
  knows : ∀ f ∈ s.futures, s.Knows f.connId f.point
  seen : ∀ task ∈ s.tasks, task.seen = 0
  count : s.tasks.length + s.woken.length = s.pendings

theorem sound_init : Sound init where
  value := fun _ => rfl
  begins := fun _ => Watch.begins_new none
  inserting := by
    intro connId uid cn h
    cases h
  recorded := by
    intro uid err h
    cases h
  listed := by
    intro connId uid h
    cases h
  named := by
    intro f h
    cases h
  knows := by
    intro f h
    cases h
  seen := by
    intro task h
    cases h
  count := rfl

/-! ## The bridge thread -/

theorem exec_value {op : HandleOp} {h : BridgeHandle}
    {watches : Nat → Watch (Option ConnectionError)}
    (hvalue : ∀ uid, (watches uid).value = (h.notifies uid).closed) (uid : Nat) :
    (track watches op uid).value = ((op.exec h).1.notifies uid).closed := by
  rw [HandleOp.exec_notifies]
  cases op with
  | insert connId uid' cn =>
    by_cases hu : uid = uid'
    · subst hu
      simp [track, Watch.new]
    · simp [track, Function.update_of_ne hu, hvalue]
  | shared uid' op =>
    by_cases hu : uid = uid'
    · subst hu
      have hcells := (op.exec_cells (h.notifies uid)).2.2
      cases op with
      | sendClosed error => simp [track, Watch.send, SharedOp.exec]
      | _ => simpa [track, hvalue] using hcells.symm
    · cases op <;> simp [track, Function.update_of_ne hu, hvalue]
  | _ => exact hvalue uid

theorem track_begins {watches : Nat → Watch (Option ConnectionError)} {op : HandleOp}
    (hop : ∀ connId uid cn, op = .insert connId uid cn → cn.closed = none)
    (h : ∀ uid, (watches uid).Begins none) (uid : Nat) : (track watches op uid).Begins none := by
  cases op with
  | insert connId uid' cn =>
    by_cases hu : uid = uid'
    · subst hu
      rw [track, Function.update_self, hop connId uid cn rfl]
      exact Watch.begins_new none
    · rw [track, Function.update_of_ne hu]
      exact h uid
  | shared uid' op =>
    cases op with
    | sendClosed error =>
      by_cases hu : uid = uid'
      · subst hu
        rw [track, Function.update_self]
        exact Watch.begins_send _ _ none
      · rw [track, Function.update_of_ne hu]
        exact h uid
    | _ => exact h uid
  | _ => exact h uid

theorem exec_inserting {op : HandleOp} {h : BridgeHandle} {todo : List HandleOp}
    (htodo : ∀ connId uid cn, .insert connId uid cn ∈ op :: todo → cn.closed = none)
    (connId uid : Nat) (cn : ConnNotify) (hin : .insert connId uid cn ∈ (op.exec h).2 ++ todo) :
    cn.closed = none := by
  rcases List.mem_append.mp hin with hadded | hrest
  · rcases HandleOp.mem_exec hadded with heq | ⟨uid', op', heq⟩
    · cases heq
    · cases heq
  · exact htodo connId uid cn (List.mem_cons_of_mem _ hrest)

def executed (s : Datagrams) (op : HandleOp) (todo : List HandleOp) : Datagrams :=
  { s with
    thread := ⟨(op.exec s.thread.handle).1, (op.exec s.thread.handle).2 ++ todo⟩
    watches := track s.watches op }.note op

section
variable {op : HandleOp} {todo : List HandleOp}

@[simp] theorem executed_thread : (s.executed op todo).thread =
    ⟨(op.exec s.thread.handle).1, (op.exec s.thread.handle).2 ++ todo⟩ := by
  unfold executed note
  split <;> rfl

@[simp] theorem executed_watches : (s.executed op todo).watches = track s.watches op := by
  unfold executed note
  split <;> rfl

@[simp] theorem executed_futures : (s.executed op todo).futures = s.futures := by
  unfold executed note
  split <;> rfl

@[simp] theorem executed_tasks : (s.executed op todo).tasks = s.tasks := by
  unfold executed note
  split <;> rfl

@[simp] theorem executed_woken : (s.executed op todo).woken = s.woken := by
  unfold executed note
  split <;> rfl

@[simp] theorem executed_pendings : (s.executed op todo).pendings = s.pendings := by
  unfold executed note
  split <;> rfl

theorem executed_inserted {x : Nat × Nat} (h : x ∈ s.inserted) :
    x ∈ (s.executed op todo).inserted := by
  unfold executed note
  split
  · exact List.mem_cons_of_mem _ h
  · exact h
  · exact h

theorem executed_reported {x : Nat × ConnectionError} (h : x ∈ s.reported) :
    x ∈ (s.executed op todo).reported := by
  unfold executed note
  split
  · exact h
  · exact List.mem_cons_of_mem _ h
  · exact h

theorem grows_exec : Grows s (s.executed op todo) := by
  apply Grows.keep
  · intro connId hsome
    rw [executed_thread, HandleOp.exec_connStates]
    cases op with
    | insert connId' uid cn =>
      by_cases hc : connId = connId'
      · subst hc
        simp
      · simpa [Function.update_of_ne hc] using hsome
    | _ => exact hsome
  · exact fun x hx => executed_inserted hx
  · exact fun x hx => executed_reported hx
  · exact executed_tasks
  · exact executed_woken

theorem exec_recorded (hs : s.Sound)
    (hop : ∀ connId uid cn, op = .insert connId uid cn → cn.closed = none) (uid : Nat)
    {err : ConnectionError} (h : (track s.watches op uid).value = some err) :
    (uid, err) ∈ (s.executed op todo).reported := by
  have hold : (s.watches uid).value = some err → (uid, err) ∈ (s.executed op todo).reported := by
    intro hvalue
    rw [hs.value] at hvalue
    exact executed_reported (hs.recorded uid err hvalue)
  cases op with
  | insert connId uid' cn =>
    by_cases hu : uid = uid'
    · subst hu
      simp [track, Watch.new, hop connId uid cn rfl] at h
    · rw [track, Function.update_of_ne hu] at h
      exact hold h
  | shared uid' op =>
    cases op with
    | sendClosed error =>
      by_cases hu : uid = uid'
      · subst hu
        obtain rfl : error = err := by simpa [track, Watch.send] using h
        exact List.mem_cons_self
      · rw [track, Function.update_of_ne hu] at h
        exact hold h
    | _ => exact hold h
  | _ => exact hold h

theorem exec_listed (hs : s.Sound) (connId uid : Nat)
    (h : (op.exec s.thread.handle).1.connStates connId = some uid) :
    (connId, uid) ∈ (s.executed op todo).inserted := by
  rw [HandleOp.exec_connStates] at h
  cases op with
  | insert connId' uid' cn =>
    by_cases hc : connId = connId'
    · subst hc
      obtain rfl : uid' = uid := by simpa using h
      exact List.mem_cons_self
    · have hold : s.thread.handle.connStates connId = some uid := by
        simpa [Function.update_of_ne hc] using h
      exact executed_inserted (hs.listed connId uid hold)
  | _ => exact executed_inserted (hs.listed connId uid h)

theorem sound_exec (hs : s.Sound) (htodo : s.thread.todo = op :: todo) :
    (s.executed op todo).Sound := by
  have hinserting : ∀ connId uid cn, .insert connId uid cn ∈ op :: todo → cn.closed = none := by
    rw [← htodo]
    exact hs.inserting
  have hop : ∀ connId uid cn, op = .insert connId uid cn → cn.closed = none := by
    intro connId uid cn heq
    apply hinserting connId uid cn
    rw [heq]
    exact List.mem_cons_self
  constructor
  · intro uid
    rw [executed_watches, executed_thread]
    exact exec_value hs.value uid
  · intro uid
    rw [executed_watches]
    exact track_begins hop hs.begins uid
  · rw [executed_thread]
    exact exec_inserting hinserting
  · intro uid err h
    rw [executed_thread, ← exec_value hs.value] at h
    exact exec_recorded hs hop uid h
  · intro connId uid h
    rw [executed_thread] at h
    exact exec_listed hs connId uid h
  · intro f hf
    rw [executed_futures] at hf
    exact grows_exec.entries _ (hs.named f hf)
  · intro f hf
    rw [executed_futures] at hf
    exact (hs.knows f hf).grow grows_exec
  · rw [executed_tasks]
    exact hs.seen
  · rw [executed_tasks, executed_woken, executed_pendings]
    exact hs.count

end

theorem created_inserting {endpointIsServer isServer : Bool} {uid : Nat} {index : Option Nat}
    {activePath : Option SocketAddr} (connId uid' : Nat) (cn : ConnNotify)
    (h : .insert connId uid' cn ∈
      BridgeHandle.onConnCreatedOps endpointIsServer uid index activePath isServer) :
    cn.closed = none := by
  simp only [BridgeHandle.onConnCreatedOps, List.cons_append, List.nil_append,
    List.mem_cons] at h
  rcases h with heq | heq | h
  · cases heq
    rfl
  · cases heq
  · split at h
    · cases List.mem_singleton.mp h
    · cases h

theorem callback_inserting {h : BridgeHandle} {index : Option Nat} {cb : Callback}
    (connId uid : Nat) (cn : ConnNotify) (hin : .insert connId uid cn ∈ h.callbackOps index cb) :
    cn.closed = none := by
  rcases List.mem_append.mp hin with hshared | hcount
  · have hops : .insert connId uid cn ∈ h.sharedOps index cb := hshared
    obtain ⟨uid', op', heq⟩ := BridgeHandle.mem_sharedOps hops
    cases heq
  · split at hcount
    · simp at hcount
    · cases hcount

theorem sound_begin (hs : s.Sound) {ops : List HandleOp} {nextConn : Nat}
    (hops : ∀ connId uid cn, .insert connId uid cn ∈ ops → cn.closed = none) :
    Sound { s with thread := { s.thread with todo := ops }, nextConn := nextConn } := by
  have hgrows : Grows s { s with thread := { s.thread with todo := ops }, nextConn := nextConn } :=
    Grows.keep (fun _ h => h) (fun _ h => h) (fun _ h => h) rfl rfl
  exact ⟨hs.value, hs.begins, hops, hs.recorded, hs.listed, hs.named,
    fun f hf => (hs.knows f hf).grow hgrows, hs.seen, hs.count⟩

/-! ## The futures and their tasks -/

theorem Sound.move (hs : s.Sound) (hthread : t.thread = s.thread)
    (hwatches : ∀ uid, (t.watches uid).value = (s.watches uid).value ∧
      (t.watches uid).Begins none)
    (hgrows : Grows s t)
    (hfutures : ∀ f ∈ t.futures, f ∈ s.futures ∨
      (s.thread.handle.connStates f.connId).isSome ∧ t.Knows f.connId f.point)
    (hseen : ∀ task ∈ t.tasks, task.seen = 0)
    (hcount : t.tasks.length + t.woken.length = t.pendings) : t.Sound := by
  constructor
  · intro uid
    rw [hthread, (hwatches uid).1]
    exact hs.value uid
  · exact fun uid => (hwatches uid).2
  · rw [hthread]
    exact hs.inserting
  · rw [hthread]
    exact fun uid err h => hgrows.reported _ (hs.recorded uid err h)
  · rw [hthread]
    exact fun connId uid h => hgrows.inserted _ (hs.listed connId uid h)
  · intro f hf
    rw [hthread]
    rcases hfutures f hf with hold | hnew
    · exact hs.named f hold
    · exact hnew.1
  · intro f hf
    rcases hfutures f hf with hold | hnew
    · exact (hs.knows f hold).grow hgrows
    · exact hnew.2
  · exact hseen
  · exact hcount

theorem mem_goto {id : Nat} {f g : ReadDatagram} {p : DatagramPoint}
    (hg : g ∈ (s.goto id f p).futures) :
    g ∈ s.futures ∨ g = { f with point := p } := by
  rcases List.mem_or_eq_of_mem_set hg with hold | hnew
  · exact Or.inl hold
  · exact Or.inr hnew

theorem sound_goto (hs : s.Sound) {id : Nat} {f : ReadDatagram} {p : DatagramPoint}
    (hf : s.futures[id]? = some f) (hp : s.Knows f.connId p) : (s.goto id f p).Sound := by
  have hgrows : Grows s (s.goto id f p) :=
    Grows.keep (fun _ h => h) (fun _ h => h) (fun _ h => h) rfl rfl
  refine hs.move (t := s.goto id f p) rfl (fun uid => ⟨rfl, hs.begins uid⟩) hgrows ?_ hs.seen
    hs.count
  intro g hg
  rcases mem_goto hg with hold | rfl
  · exact Or.inl hold
  · exact Or.inr ⟨hs.named f (List.mem_of_getElem? hf), hp.grow hgrows⟩

theorem sound_spawn (hs : s.Sound) {id waker uid : Nat} {f : ReadDatagram}
    (hf : s.futures[id]? = some f) (huid : (f.connId, uid) ∈ s.inserted) :
    Sound { s.goto id f (.pending waker uid s.woken.length) with
      tasks := s.tasks ++ [⟨uid, 0, waker⟩], pendings := s.pendings + 1 } := by
  refine hs.move rfl (fun uid => ⟨rfl, hs.begins uid⟩) ?grows ?futures ?seen ?count
  case grows =>
    refine ⟨fun _ h => h, fun _ h => h, fun _ h => h, [], (List.append_nil _).symm, ?_⟩
    intro task htask
    exact Or.inl (List.mem_append_left _ htask)
  case futures =>
    intro g hg
    rcases mem_goto hg with hold | rfl
    · exact Or.inl hold
    · refine Or.inr ⟨hs.named f (List.mem_of_getElem? hf), huid, Nat.le_refl _, Or.inl ?_⟩
      exact List.mem_append_right _ List.mem_cons_self
  case seen =>
    intro task htask
    rcases List.mem_append.mp htask with hold | hnew
    · exact hs.seen task hold
    · rw [List.mem_singleton.mp hnew]
  case count =>
    have hcount := hs.count
    simp only [goto, List.length_append, List.length_singleton]
    omega

theorem sound_advance (hs : s.Sound) {id : Nat} {f : ReadDatagram}
    (hf : s.futures[id]? = some f) (h : s.advance id f = some t) : t.Sound := by
  have hknows := hs.knows f (List.mem_of_getElem? hf)
  unfold advance at h
  cases hp : f.point with
  | check waker =>
    rw [hp] at h
    cases hentry : s.thread.handle.connStates f.connId with
    | none =>
      simp only [hentry, Option.some.injEq] at h
      subst h
      exact sound_goto hs hf trivial
    | some uid =>
      simp only [hentry, Option.some.injEq] at h
      subst h
      exact sound_goto hs hf (hs.listed _ _ hentry)
  | borrow waker uid =>
    rw [hp] at h hknows
    cases hclosed : (s.thread.handle.notifies uid).closed with
    | none =>
      simp only [hclosed, Option.some.injEq] at h
      subst h
      exact sound_goto hs hf trivial
    | some err =>
      simp only [hclosed, Option.some.injEq] at h
      subst h
      exact sound_goto hs hf ⟨uid, hknows, hs.recorded uid err hclosed⟩
  | lookup waker =>
    rw [hp] at h
    obtain ⟨uid, hentry⟩ := Option.isSome_iff_exists.mp (hs.named f (List.mem_of_getElem? hf))
    simp only [hentry, Option.some.injEq] at h
    subst h
    exact sound_goto hs hf (hs.listed _ _ hentry)
  | watch waker uid =>
    rw [hp] at h hknows
    simp only [Option.some.injEq] at h
    subst h
    exact sound_spawn hs hf hknows
  | idle | pending | ready | dropped =>
    rw [hp] at h
    cases h

theorem wake_cases {k : Nat} (h : s.wake k = some t) :
    ∃ task r, s.tasks[k]? = some task ∧ (s.watches task.uid).changed task.seen = some r ∧
      t = { s with tasks := s.tasks.eraseIdx k, woken := s.woken ++ [task.waker] } := by
  unfold wake at h
  cases htask : s.tasks[k]? with
  | none => simp [htask] at h
  | some task =>
    cases hchanged : (s.watches task.uid).changed task.seen with
    | none => simp [htask, hchanged] at h
    | some r =>
      simp only [htask, hchanged, Option.some.injEq] at h
      exact ⟨task, r, rfl, hchanged, h.symm⟩

theorem mem_eraseIdx_or {task task' : CloseTask} {tasks : List CloseTask} {k : Nat}
    (hk : tasks[k]? = some task) (h : task' ∈ tasks) : task' ∈ tasks.eraseIdx k ∨ task' = task := by
  obtain ⟨i, hi⟩ := List.getElem?_of_mem h
  by_cases hik : i = k
  · subst hik
    exact Or.inr (Option.some.inj (hi.symm.trans hk))
  · exact Or.inl (List.mem_eraseIdx_iff_getElem?.mpr ⟨i, hik, hi⟩)

theorem sound_wake (hs : s.Sound) {k : Nat} (h : s.wake k = some t) : t.Sound := by
  obtain ⟨task, r, hk, -, rfl⟩ := wake_cases h
  have hlt : k < s.tasks.length := (List.getElem?_eq_some_iff.mp hk).1
  refine hs.move rfl (fun uid => ⟨rfl, hs.begins uid⟩) ?grows (fun f hf => Or.inl hf) ?seen ?count
  case grows =>
    refine ⟨fun _ h => h, fun _ h => h, fun _ h => h, [task.waker], rfl, ?_⟩
    intro task' htask'
    rcases mem_eraseIdx_or hk htask' with hstill | rfl
    · exact Or.inl hstill
    · exact Or.inr List.mem_cons_self
  case seen =>
    intro task' htask'
    exact hs.seen task' (List.mem_of_mem_eraseIdx htask')
  case count =>
    have hcount := hs.count
    simp only [List.length_append, List.length_singleton, List.length_eraseIdx, if_pos hlt]
    omega

theorem dropped_watch {watches : Nat → Watch (Option ConnectionError)}
    (h : ∀ uid, (watches uid).Begins none) (uid uid' : Nat) :
    (Function.update watches uid (watches uid).dropSender uid').value = (watches uid').value ∧
      (Function.update watches uid (watches uid).dropSender uid').Begins none := by
  by_cases hu : uid' = uid
  · subst hu
    rw [Function.update_self]
    exact ⟨rfl, (h uid').dropSender⟩
  · rw [Function.update_of_ne hu]
    exact ⟨rfl, h uid'⟩

theorem sound_step {e : DatagramEvent} (hs : s.Sound) (h : s.step endpointIsServer e = some t) :
    t.Sound := by
  cases e with
  | created index activePath isServer =>
    obtain ⟨thread, hthread, rfl⟩ := Option.map_eq_some_iff.mp h
    obtain ⟨ops, -, hops, rfl⟩ := BridgeThread.step_start (by intro h; cases h) hthread
    obtain rfl := Option.some.inj hops
    exact sound_begin hs created_inserting
  | callback index cb =>
    obtain ⟨thread, hthread, rfl⟩ := Option.map_eq_some_iff.mp h
    obtain ⟨ops, -, hops, rfl⟩ := BridgeThread.step_start (by intro h; cases h) hthread
    obtain rfl := Option.some.inj hops
    exact sound_begin hs callback_inserting
  | exec =>
    simp only [step] at h
    split at h
    · cases h
    · rename_i op todo htodo
      obtain ⟨thread, hthread, rfl⟩ := Option.map_eq_some_iff.mp h
      obtain ⟨op', todo', htodo', rfl⟩ := BridgeThread.step_exec hthread
      obtain ⟨rfl, rfl⟩ := List.cons.inj (htodo.symm.trans htodo')
      exact sound_exec hs htodo
  | dropNotify connId uid =>
    simp only [step] at h
    split at h
    · obtain rfl := Option.some.inj h
      exact hs.move rfl (dropped_watch hs.begins uid)
        (Grows.keep (fun _ h => h) (fun _ h => h) (fun _ h => h) rfl rfl)
        (fun f hf => Or.inl hf) hs.seen hs.count
    · cases h
  | readDatagram connId =>
    simp only [step] at h
    split at h
    · rename_i uid hentry
      obtain rfl := Option.some.inj h
      refine hs.move rfl (fun uid => ⟨rfl, hs.begins uid⟩)
        (Grows.keep (fun _ h => h) (fun _ h => h) (fun _ h => h) rfl rfl) ?_ hs.seen hs.count
      intro f hf
      rcases List.mem_append.mp hf with hold | hnew
      · exact Or.inl hold
      · rw [List.mem_singleton.mp hnew]
        exact Or.inr ⟨by simp [hentry], trivial⟩
    · cases h
  | poll id waker =>
    obtain ⟨f, hf, h⟩ := Option.bind_eq_some_iff.mp h
    unfold startPoll at h
    split at h
    · obtain rfl := Option.some.inj h
      exact sound_goto hs hf trivial
    · obtain rfl := Option.some.inj h
      exact sound_goto hs hf trivial
    · cases h
  | advance id =>
    obtain ⟨f, hf, h⟩ := Option.bind_eq_some_iff.mp h
    exact sound_advance hs hf h
  | wake k => exact sound_wake hs h
  | drop id =>
    simp only [step] at h
    split at h
    · rename_i f hf
      split at h
      · obtain rfl := Option.some.inj h
        exact sound_goto hs hf trivial
      · obtain rfl := Option.some.inj h
        exact sound_goto hs hf trivial
      · obtain rfl := Option.some.inj h
        exact sound_goto hs hf trivial
      · cases h
    · cases h

theorem sound_reach (h : Reach (step endpointIsServer) Any init s) : s.Sound := by
  apply h.invariant _ sound_init
  intro s e t hs _ hstep
  exact sound_step hs hstep

/-! ## The tasks run to their end -/

def Wakes : DatagramEvent → Prop
  | .wake _ => True
  | _ => False

theorem wakes_works (endpointIsServer : Bool) :
    Works (step endpointIsServer) Wakes fun s => s.tasks.length := by
  intro s e t he h
  cases e with
  | wake k =>
    obtain ⟨task, r, hk, -, rfl⟩ := wake_cases h
    have hlt : k < s.tasks.length := (List.getElem?_eq_some_iff.mp hk).1
    simp only [List.length_eraseIdx, if_pos hlt]
    omega
  | _ => cases he

theorem quiet_task (hs : s.Sound) (hquiet : Quiet (step endpointIsServer) Wakes s)
    {task : CloseTask} (htask : task ∈ s.tasks) :
    (s.thread.handle.notifies task.uid).closed = none ∧
      (s.watches task.uid).hasSender = true := by
  obtain ⟨k, hk⟩ := List.getElem?_of_mem htask
  have hwait : (s.watches task.uid).changed task.seen = none := by
    have hnone := hquiet (.wake k) trivial
    simp only [step, wake, hk] at hnone
    split at hnone
    · cases hnone
    · assumption
  rw [hs.seen task htask] at hwait
  rw [← hs.value]
  exact (hs.begins task.uid).waits hwait

def Rests : DatagramPoint → Prop
  | .idle | .pending _ _ _ => True
  | _ => False

section
variable {id : Nat} {f : ReadDatagram}

theorem step_advance (hf : s.futures[id]? = some f) :
    s.step endpointIsServer (.advance id) = s.advance id f := by
  simp only [step, hf, Option.bind_some]

@[simp] theorem goto_thread (s : Datagrams) (p : DatagramPoint) :
    (s.goto id f p).thread = s.thread := rfl

theorem goto_goto (s : Datagrams) (p q : DatagramPoint) :
    (s.goto id f p).goto id { f with point := p } q = s.goto id f q := by
  simp only [goto, List.set_set]

theorem goto_future (hf : s.futures[id]? = some f) (p : DatagramPoint) :
    (s.goto id f p).futures[id]? = some { f with point := p } :=
  List.getElem?_set_self (List.getElem?_eq_some_iff.mp hf).1

theorem poll_closed {waker uid : Nat} {err : ConnectionError}
    (hf : s.futures[id]? = some f) (hrests : Rests f.point)
    (hentry : s.thread.handle.connStates f.connId = some uid)
    (hclosed : (s.thread.handle.notifies uid).closed = some err) :
    run (step endpointIsServer) s [.poll id waker, .advance id, .advance id] =
      some (s.goto id f (.ready err)) := by
  have hpoll : s.step endpointIsServer (.poll id waker) = some (s.goto id f (.check waker)) := by
    simp only [step, hf, Option.bind_some, startPoll]
    cases hp : f.point with
    | idle => rfl
    | pending waker' uid' since => rfl
    | _ =>
      rw [hp] at hrests
      cases hrests
  have hcheck : (s.goto id f (.check waker)).step endpointIsServer (.advance id) =
      some (s.goto id f (.borrow waker uid)) := by
    rw [step_advance (goto_future hf _)]
    simp only [advance, goto_thread, hentry, goto_goto]
  have hborrow : (s.goto id f (.borrow waker uid)).step endpointIsServer (.advance id) =
      some (s.goto id f (.ready err)) := by
    rw [step_advance (goto_future hf _)]
    simp only [advance, goto_thread, hclosed, goto_goto]
  simp only [run, hpoll, hcheck, hborrow, Option.bind_some]

end

/-- A `ReadDatagram` ends only with a reason recorded for an entry of its connection. Every
poll that returned `Pending` has a task, until the task has woken its waker; when no task can
run, every future that was not woken since its poll waits for a connection without a close
reason. The tasks can always be run to that point, and with the reason recorded the next poll
ends with it. -/
theorem read_datagram_ends (endpointIsServer : Bool) (s : Datagrams)
    (hreach : Reach (step endpointIsServer) Any init s) :
    (∀ f ∈ s.futures, ∀ err, f.point = .ready err →
      ∃ uid, (f.connId, uid) ∈ s.inserted ∧ (uid, err) ∈ s.reported) ∧
    s.tasks.length + s.woken.length = s.pendings ∧
    (∃ t, Reach (step endpointIsServer) (fun _ => Wakes) s t ∧
      Quiet (step endpointIsServer) Wakes t) ∧
    (Quiet (step endpointIsServer) Wakes s → ∀ f ∈ s.futures, ∀ waker uid since,
      f.point = .pending waker uid since → waker ∉ s.woken.drop since →
      (s.thread.handle.notifies uid).closed = none ∧ (s.watches uid).hasSender = true) ∧
    ∀ id f waker uid err, s.futures[id]? = some f → Rests f.point →
      s.thread.handle.connStates f.connId = some uid →
      (s.thread.handle.notifies uid).closed = some err →
      ∃ t, run (step endpointIsServer) s [.poll id waker, .advance id, .advance id] = some t ∧
        t.futures[id]? = some { f with point := .ready err } := by
  have hs := sound_reach hreach
  refine ⟨?ends, hs.count, (wakes_works endpointIsServer).reach_quiet s, ?quiet, ?next⟩
  case ends =>
    intro f hf err hready
    have hknows := hs.knows f hf
    rw [hready] at hknows
    exact hknows
  case quiet =>
    intro hquiet f hf waker uid since hpending hasleep
    have hknows := hs.knows f hf
    rw [hpending] at hknows
    obtain ⟨-, -, htask | hwoke⟩ := hknows
    · exact quiet_task hs hquiet htask
    · exact absurd hwoke hasleep
  case next =>
    intro id f waker uid err hf hrests hentry hclosed
    exact ⟨_, poll_closed hf hrests hentry hclosed, goto_future hf _⟩

theorem read_datagram_ends_timeout :
    ∃ s, Reach (step false) Any init s ∧ s.tasks = [] ∧ s.woken.length = 2 := by
  have hrun : ∃ s, run (step false) init [.created 0 none false, .exec, .exec, .readDatagram 0,
      .poll 0 1, .advance 0, .advance 0, .advance 0, .advance 0,
      .poll 0 2, .advance 0, .advance 0, .advance 0, .advance 0,
      .callback 0 (.onConnClosed ⟨none, none, true, false, false⟩), .exec, .exec, .exec, .exec,
      .exec, .wake 0, .wake 0] = some s ∧ s.tasks = [] ∧ s.pendings = 2 := ⟨_, rfl, rfl, rfl⟩
  obtain ⟨s, hs, htasks, hpendings⟩ := hrun
  have hreach : Reach (step false) Any init s := reach_any_of_run hs
  obtain ⟨-, hcount, -⟩ := read_datagram_ends false s hreach
  rw [htasks, hpendings] at hcount
  exact ⟨s, hreach, htasks, by simpa using hcount⟩

end Datagrams

end TokioTquic
