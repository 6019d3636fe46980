import TokioTquic.ClientConfig
import TokioTquic.Pending
import TokioTquic.Shutdown

/-!
# Connections after `Endpoint::close`

A `connect` that comes after `endpoint_closed` is set sends no command. One that came
before may still be queued, and the bridge thread carries it out without a look at
`endpoint_closed`. But `CloseEndpoint` ended with `endpoint.close(false)`, so it is the
engine that refuses.
-/

namespace TokioTquic
open Async
set_option autoImplicit false

universe u
variable {κ : Type u} {χ ψ : Type}

def HandlesEvent.isCreated : HandlesEvent κ χ ψ → Bool
  | .connCreated _ _ => true
  | _ => false

/-- The engine makes no connection, as after `endpoint.close`. -/
def HandlesEvent.Refuses : HandlesEvent κ χ ψ → Prop
  | .process answer => ∃ e, answer = .error e
  | _ => True

/-- A `Connecting` of `connect` that waits for its connection, was told that there is
none, or is gone. -/
inductive Unmade (addr : SocketAddr) : Option Handle → Prop where
  | waits (origin : Option Nat) : Unmade addr (some ⟨origin, .connecting ⟨some none, none, addr⟩⟩)
  | failed (origin : Option Nat) (e : ConnectError) :
      Unmade addr (some ⟨origin, .connecting ⟨some (some (.error e)), none, addr⟩⟩)
  | gone : Unmade addr none

namespace Handles
variable {T : Tquic κ} {configError : χ → Option ConnectError} {s t : Handles κ χ ψ}

def connects (s : Handles κ χ ψ) : Nat := s.plan.1.length

theorem plan_length (queue : List (Option Nat × BridgeCommand χ ψ Respond)) :
    ∀ current other : Option χ,
      (TokioTquic.plan current queue).1.length = (TokioTquic.plan other queue).1.length := by
  induction queue with
  | nil => exact fun _ _ => rfl
  | cons x queue ih =>
    intro current other
    obtain ⟨origin, cmd⟩ := x
    cases cmd with
    | connect addr serverName clientConfig respond =>
      have hrest := ih current other
      simp only [TokioTquic.plan, List.length_cons]
      omega
    | setDefaultClientConfig config => exact ih (some config) (some config)
    | setServerConfig config => exact ih current other
    | closeEndpoint errorCode reason => exact ih current other
    | acceptIncoming => exact ih current other
    | onConn connId cmd => exact ih current other

theorem create_nextConn {new : NewConn κ} {isServer : Bool} (h : s.create new isServer = some t) :
    t.nextConn = s.nextConn + 1 := by
  unfold create at h
  split at h <;> cases h
  rfl

theorem process_connects {answer : Except TquicError (NewConn κ)} {origin : Option Nat}
    {cmd : BridgeCommand χ ψ Respond} {queue : List (Option Nat × BridgeCommand χ ψ Respond)}
    (hqueue : s.queue = (origin, cmd) :: queue)
    (h : { s with queue := queue }.processCommand T configError answer cmd = some t) :
    t.nextConn + t.connects ≤ s.nextConn + s.connects := by
  cases cmd with
  | connect addr serverName clientConfig respond =>
    have hpopped : s.connects = (TokioTquic.plan s.currentClientConfig queue).1.length + 1 := by
      rw [connects, Handles.plan, hqueue, TokioTquic.plan, List.length_cons]
    have hplan : t.plan = TokioTquic.plan s.currentClientConfig queue :=
      processCommand_plan (by simp) h
    have hmade : t.nextConn ≤ s.nextConn + 1 := by
      simp only [processCommand] at h
      split at h
      · obtain ⟨u, hu, rfl⟩ := Option.map_eq_some_iff.mp h
        rw [(deliver_frame _ _ _).2.1, create_nextConn hu]
      · cases h
        rw [(deliver_frame _ _ _).2.1]
        exact Nat.le_succ _
    rw [hpopped, connects, hplan]
    omega
  | setDefaultClientConfig config =>
    cases h
    have hlength := plan_length queue (some config) s.currentClientConfig
    simp only [connects, Handles.plan, hqueue, TokioTquic.plan]
    omega
  | setServerConfig config =>
    cases h
    simp only [connects, Handles.plan, hqueue, TokioTquic.plan]
    exact Nat.le_refl _
  | closeEndpoint code reason =>
    cases h
    simp only [connects, Handles.plan, hqueue, TokioTquic.plan]
    exact Nat.le_refl _
  | acceptIncoming =>
    cases h
    simp only [connects, Handles.plan, hqueue, TokioTquic.plan]
    exact Nat.le_refl _
  | onConn index cmd =>
    have hplan : t.plan = TokioTquic.plan s.currentClientConfig queue :=
      processCommand_plan (by simp) h
    have hnext : t.nextConn = s.nextConn := by
      cases h
      unfold processOnConn
      split <;> rw [(deliver_frame _ _ _).2.1]
    rw [connects, hplan, hnext]
    simp only [connects, Handles.plan, hqueue, TokioTquic.plan]
    exact Nat.le_refl _

theorem closed_connects {e : HandlesEvent κ χ ψ} (hclosed : s.handle.endpointClosed = true)
    (h : s.step T configError e = some t) :
    t.nextConn + t.connects ≤ s.nextConn + s.connects + (if e.isCreated then 1 else 0) := by
  have hsame : t.nextConn = s.nextConn → t.plan.1 = s.plan.1 →
      t.nextConn + t.connects ≤ s.nextConn + s.connects + (if e.isCreated then 1 else 0) := by
    intro hnext hplan
    rw [connects, hplan, hnext, ← connects]
    exact Nat.le_add_right _ _
  cases step_inv h with
  | connCreated hcreate =>
    rw [connects, create_plan hcreate, create_nextConn hcreate, ← connects]
    simp only [HandlesEvent.isCreated, if_true]
    omega
  | process hqueue hcmd =>
    have hle := process_connects hqueue hcmd
    simp only [HandlesEvent.isCreated]
    omega
  | connect hopen =>
    rw [hclosed] at hopen
    cases hopen
  | setDefaultClientConfig | setServerConfig | closeEndpoint =>
    apply hsame rfl
    rw [sendEndpoint_plan]
    simp [TokioTquic.plan]
  | use hh huse =>
    have hmove := useValue_move huse
    exact hsame hmove.nextConn (by rw [hmove.plan])
  | callback | closed | engine | release | refused | accept => exact hsame rfl rfl

theorem connects_run (T : Tquic κ) (configError : χ → Option ConnectError)
    (es : List (HandlesEvent κ χ ψ)) :
    ∀ {s t : Handles κ χ ψ}, s.handle.endpointClosed = true →
      run (step T configError) s es = some t →
      t.nextConn + t.connects ≤ s.nextConn + s.connects + es.countP HandlesEvent.isCreated := by
  induction es with
  | nil =>
    intro s t _ hrun
    obtain rfl : s = t := by simpa [run] using hrun
    exact Nat.le_add_right _ _
  | cons e es ih =>
    intro s t hclosed hrun
    cases hstep : step T configError s e with
    | none => simp [run, hstep] at hrun
    | some u =>
      have hrest : run (step T configError) u es = some t := by simpa [run, hstep] using hrun
      have hnext : Reach (step T configError) Any s u := Reach.single trivial hstep
      have hu : u.handle.endpointClosed = true := closed_reach hnext hclosed
      have hfirst := closed_connects hclosed hstep
      have hlater := ih hu hrest
      rw [List.countP_cons]
      omega

/-! ## The `Connecting` of a refused `Connect` -/

theorem unmade_deliver {addr : SocketAddr} {uid : Option Nat} {x : Option (Respond × Reply)}
    (hx : ∀ respond r, x = some (respond, .connected r) → ∃ e, r = .error e) {id : Nat}
    (h : Unmade addr (s.values id)) : Unmade addr ((s.deliver uid x).values id) := by
  obtain ⟨-, hsame | ⟨n, reply, g, rfl, hold, hnew⟩⟩ := s.deliver_values uid x id
  · rw [hsame]
    exact h
  · rw [hold] at h
    rw [hnew]
    cases h with
    | waits origin =>
      cases reply with
      | connected r =>
        obtain ⟨e, rfl⟩ := hx _ _ rfl
        exact .failed uid e
      | _ => exact .waits origin
    | failed origin e => exact .failed origin e

theorem processConnCommand_connected (conn : Option κ) (cmd : ConnCommand Respond)
    (respond : Respond) (r : Except ConnectError Nat) :
    (processConnCommand T conn cmd).2 ≠ some (respond, .connected r) := by
  cases cmd <;> simp [processConnCommand]

theorem refused_process {e : TquicError} {cmd : BridgeCommand χ ψ Respond}
    (h : s.processCommand T configError (.error e) cmd = some t) :
    t.nextConn = s.nextConn ∧ t.next = s.next ∧
      ∀ addr id, Unmade addr (s.values id) → Unmade addr (t.values id) := by
  cases cmd with
  | connect remoteAddr serverName clientConfig respond =>
    have hrefused : ∃ e', connectOutcome configError s.currentClientConfig clientConfig
        (.error e : Except TquicError (NewConn κ)) = .error e' := by
      unfold connectOutcome
      split
      · exact ⟨_, rfl⟩
      · exact ⟨_, rfl⟩
    obtain ⟨e', he'⟩ := hrefused
    simp only [processCommand, he'] at h
    cases h
    refine ⟨(deliver_frame _ _ _).2.1, (deliver_values _ _ _ 0).1, fun addr id hs => ?_⟩
    refine unmade_deliver ?_ hs
    intro respond' r hr
    cases hr
    exact ⟨e', rfl⟩
  | onConn index cmd =>
    cases h
    unfold processOnConn
    split
    · refine ⟨(deliver_frame _ _ _).2.1, (deliver_values _ _ _ 0).1, fun addr id hs => ?_⟩
      refine unmade_deliver ?_ hs
      exact fun _ _ hr => absurd hr (processConnCommand_connected _ _ _ _)
    · refine ⟨(deliver_frame _ _ _).2.1, (deliver_values _ _ _ 0).1, fun addr id hs => ?_⟩
      refine unmade_deliver ?_ hs
      exact fun _ _ hr => absurd hr (processConnCommand_connected _ _ _ _)
  | setServerConfig | setDefaultClientConfig | closeEndpoint | acceptIncoming =>
    cases h
    exact ⟨rfl, rfl, fun _ _ hs => hs⟩

theorem unmade_use {id : Nat} {h : Handle} {op : Op} (hh : s.values id = some h)
    (huse : s.useValue id h op = some t) {addr : SocketAddr} (hs : Unmade addr (s.values id)) :
    Unmade addr (t.values id) := by
  rw [hh] at hs
  cases hs with
  | waits origin =>
    cases op with
    | drop =>
      cases huse
      simp [dropValue, Handles.setValue, Unmade.gone]
    | poll branch =>
      cases huse
      rw [show s.pollConnecting id origin ⟨some none, none, addr⟩ = s from rfl, hh]
      exact .waits origin
    | _ => cases huse
  | failed origin e =>
    cases op with
    | drop =>
      cases huse
      simp [dropValue, Handles.setValue, Unmade.gone]
    | poll branch =>
      cases huse
      rw [show s.pollConnecting id origin ⟨some (some (.error e)), none, addr⟩ = s from rfl, hh]
      exact .failed origin e
    | _ => cases huse

/-- On the closed endpoint the engine's own connections are the only new ones, and no
`Connecting` of `connect` gets one. -/
theorem refused_step {e : HandlesEvent κ χ ψ} (hclosed : s.handle.endpointClosed = true)
    (he : e.Refuses) (h : s.step T configError e = some t) :
    t.nextConn = s.nextConn + (if e.isCreated then 1 else 0) ∧ s.next ≤ t.next ∧
      ∀ addr id, id < s.next → Unmade addr (s.values id) → Unmade addr (t.values id) := by
  have hsame : t.nextConn = s.nextConn → t.next = s.next → t.values = s.values →
      t.nextConn = s.nextConn + 0 ∧ s.next ≤ t.next ∧
        ∀ addr id, id < s.next → Unmade addr (s.values id) → Unmade addr (t.values id) := by
    intro hconn hnext hvalues
    rw [hvalues]
    exact ⟨hconn, Nat.le_of_eq hnext.symm, fun _ _ _ hs => hs⟩
  cases step_inv h with
  | connCreated hcreate =>
    unfold create at hcreate
    split at hcreate <;> cases hcreate
    exact ⟨rfl, Nat.le_refl _, fun _ _ _ hs => hs⟩
  | process hqueue hcmd =>
    obtain ⟨e, rfl⟩ := he
    obtain ⟨hconn, hnext, hvalues⟩ := refused_process hcmd
    exact ⟨hconn, Nat.le_of_eq hnext.symm, fun addr id _ => hvalues addr id⟩
  | connect hopen | accept hopen =>
    rw [hclosed] at hopen
    cases hopen
  | use hh huse =>
    rename_i i g op
    have htouches := useValue_touches hh huse
    refine ⟨(useValue_move huse).nextConn, htouches.next, fun addr id hid hs => ?_⟩
    by_cases hi : id = i
    · subst hi
      exact unmade_use hh huse hs
    · rw [htouches.others id hi hid]
      exact hs
  | callback | closed | engine | release | refused => exact hsame rfl rfl rfl
  | setDefaultClientConfig | setServerConfig | closeEndpoint => exact hsame rfl rfl rfl

theorem refused_run (T : Tquic κ) (configError : χ → Option ConnectError)
    (es : List (HandlesEvent κ χ ψ)) :
    ∀ {s t : Handles κ χ ψ}, s.handle.endpointClosed = true → (∀ e ∈ es, e.Refuses) →
      run (step T configError) s es = some t →
      t.nextConn = s.nextConn + es.countP HandlesEvent.isCreated ∧
        ∀ addr id, id < s.next → Unmade addr (s.values id) → Unmade addr (t.values id) := by
  induction es with
  | nil =>
    intro s t _ _ hrun
    obtain rfl : s = t := by simpa [run] using hrun
    exact ⟨rfl, fun _ _ _ hs => hs⟩
  | cons e es ih =>
    intro s t hclosed hes hrun
    cases hstep : step T configError s e with
    | none => simp [run, hstep] at hrun
    | some u =>
      have hrest : run (step T configError) u es = some t := by simpa [run, hstep] using hrun
      have hnext : Reach (step T configError) Any s u := Reach.single trivial hstep
      have hu : u.handle.endpointClosed = true := closed_reach hnext hclosed
      obtain ⟨hconn, hle, hfirst⟩ := refused_step hclosed (hes e List.mem_cons_self) hstep
      obtain ⟨hconns, hlater⟩ := ih hu (fun e he => hes e (List.mem_cons_of_mem _ he)) hrest
      refine ⟨?_, fun addr id hid hs => ?_⟩
      · rw [List.countP_cons, hconns, hconn]
        omega
      · exact hlater addr id (Nat.lt_of_lt_of_le hid hle) (hfirst addr id hid hs)

/-- From the moment the endpoint is closed, the connections that are still made are the
engine's own and at most one for each `Connect` that was queued by then. If the engine
refuses those, none is made for them: the `Connecting` of each gets an error as soon as its
command is taken. -/
theorem late_connects (T : Tquic κ) (configError : χ → Option ConnectError) (isServer : Bool)
    (s : Handles κ χ ψ) (hs : Reach (step T configError) Any (init isServer) s)
    (hclosed : s.handle.endpointClosed = true) (es : List (HandlesEvent κ χ ψ))
    (t : Handles κ χ ψ) (hrun : run (step T configError) s es = some t) :
    t.handle.endpointClosed = true ∧
    t.nextConn + t.connects ≤ s.nextConn + s.connects + es.countP HandlesEvent.isCreated ∧
    ((∀ e ∈ es, e.Refuses) →
      t.nextConn = s.nextConn + es.countP HandlesEvent.isCreated ∧
      ∀ id origin addr, s.values id = some ⟨origin, .connecting ⟨some none, none, addr⟩⟩ →
        t.values id = none ∨
        (∃ origin e, t.values id =
          some ⟨origin, .connecting ⟨some (some (.error e)), none, addr⟩⟩) ∨
        ∃ origin, t.values id = some ⟨origin, .connecting ⟨some none, none, addr⟩⟩ ∧
          ∃ x ∈ t.queue, ∃ remoteAddr serverName clientConfig n,
            x.2 = .connect remoteAddr serverName clientConfig (id, n)) := by
  have hreach : Reach (step T configError) Any s t := reach_any_of_run hrun
  refine ⟨closed_reach hreach hclosed, connects_run T configError es hclosed hrun, ?_⟩
  intro hrefuses
  obtain ⟨hconns, hunmade⟩ := refused_run T configError es hclosed hrefuses hrun
  refine ⟨hconns, fun id origin addr hid => ?_⟩
  have hnamed : s.Named :=
    hs.invariant (fun _ _ _ hI _ hstep => named_step hI hstep) (named_init isServer)
  have hpending : t.Pending :=
    (hs.trans hreach).invariant (fun _ _ _ hI _ hstep => pending_step hI hstep)
      (pending_init isServer)
  have hbefore : Unmade addr (s.values id) := by
    rw [hid]
    exact .waits origin
  have hafter := hunmade addr id (hnamed id _ hid) hbefore
  cases hvalue : t.values id with
  | none => exact Or.inl rfl
  | some h =>
    rw [hvalue] at hafter
    cases hafter with
    | failed origin e => exact Or.inr (Or.inl ⟨origin, e, rfl⟩)
    | waits origin =>
      obtain ⟨⟨from', cmd⟩, hx, hanswered⟩ := hpending id _ hvalue trivial
      cases hanswered with
      | connect _ remoteAddr serverName clientConfig n =>
        exact Or.inr (Or.inr ⟨origin, rfl, _, hx, remoteAddr, serverName, clientConfig, n, rfl⟩)

/-- `close` and then two calls of `connect`; the endpoint is closed by the time they are
executed. -/
def lateRun : List (HandlesEvent Script Unit Unit) :=
  [.closeEndpoint (.fromU32 0) [], .connect .unspecified "one" none,
    .connect .unspecified "two" none, .process (.error .done)]

theorem late_connects_queued :
    ∃ s t : Handles Script Unit Unit,
      run (step Tquic.scripted fun _ => none) (init false) lateRun = some s ∧
      s.handle.endpointClosed = true ∧ s.connects = 2 ∧
      run (step Tquic.scripted fun _ => none) s [.process (.error (.other "endpoint closed"))] =
        some t ∧
      t.nextConn = 0 ∧ t.connects = 1 ∧
      ∃ origin e, t.values 0 =
        some ⟨origin, .connecting ⟨some (some (.error e)), none, .unspecified⟩⟩ := by
  obtain ⟨s, t, hs, hclosed, hconnects, hvalue, hnext, ht, hleft, hqueue, hgone⟩ :
      ∃ s t : Handles Script Unit Unit,
      run (step Tquic.scripted fun _ => none) (init false) lateRun = some s ∧
      s.handle.endpointClosed = true ∧ s.connects = 2 ∧
      s.values 0 = some ⟨none, .connecting ⟨some none, none, .unspecified⟩⟩ ∧ s.nextConn = 0 ∧
      run (step Tquic.scripted fun _ => none) s [.process (.error (.other "endpoint closed"))] =
        some t ∧
      t.connects = 1 ∧
      t.queue = [(none, .connect .unspecified "two" none (1, 1))] ∧ (t.values 0).isSome :=
    ⟨_, _, rfl, rfl, rfl, rfl, rfl, rfl, rfl, rfl, rfl⟩
  have hlate := late_connects Tquic.scripted (fun _ => none) false s (reach_any_of_run hs) hclosed
    [.process (.error (.other "endpoint closed"))] t ht
  obtain ⟨hconns, hvalues⟩ := hlate.2.2 (by simp [HandlesEvent.Refuses])
  refine ⟨s, t, hs, hclosed, hconnects, ht, by rw [hconns, hnext]; rfl, hleft, ?_⟩
  rcases hvalues 0 none .unspecified hvalue with hnone | hfailed | ⟨origin, -, x, hx, hconnect⟩
  · rw [hnone] at hgone
    cases hgone
  · exact hfailed
  · rw [hqueue] at hx
    obtain ⟨_, _, _, _, hx'⟩ := hconnect
    rw [List.mem_singleton.mp hx] at hx'
    cases hx'

end Handles

end TokioTquic
