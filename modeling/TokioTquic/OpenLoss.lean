import TokioTquic.LossAgreement
import TokioTquic.Ownership

/-!
# When opening a stream reports a connection loss

`process_command` turns every error of `stream_bidi_new` and `stream_uni_new`
into `LocallyClosed`, and the engine refuses streams on connections in good
health too.
-/

namespace TokioTquic
open Async
set_option autoImplicit false

universe u
variable {κ : Type u} {T : Tquic κ} {closing : κ → Prop}

/-- `closing` tells which connections of the engine are closed, closing or draining: the
operations of the bridge thread do not take a close back, and no stream that is asked
for starts one. -/
structure Tquic.Closes (T : Tquic κ) (closing : κ → Prop) : Prop where
  kept : ∀ (cmd : ConnCommand Nat) (c c' : κ), (processConnCommand T (some c) cmd).1 = some c' →
    closing c → closing c'
  opening : ∀ (c : κ) (dir : Dir), closing (T.streamNew dir c).2 → closing c

namespace Streams
variable {s t : Streams κ}

def Over (closing : κ → Prop) (s : Streams κ) : Prop :=
  s.bridge.cn.closed.isSome ∨ ∀ c ∈ s.bridge.conn, closing c

/-- An open future that is about to return an error is on a connection that is over. -/
def ErrorsTrue (closing : κ → Prop) (s : Streams κ) : Prop :=
  ∀ id f error, s.opens id = some f → s.openResult f.point = some (.error error) → s.Over closing

/-- What the engine does on its own takes no close back. -/
def StaysOver (closing : κ → Prop) (s : Streams κ) : StreamsEvent κ → Prop
  | .bridge (.engine conn) => (∀ c ∈ s.bridge.conn, closing c) → ∀ c ∈ conn, closing c
  | _ => True

/-- The engine grants the streams that are waited for on a connection that is not over. -/
def Granted (T : Tquic κ) (closing : κ → Prop) (s : Streams κ) : StreamsEvent κ → Prop
  | .process => ∀ c dir id queue f, s.bridge.queue = openCommand dir id :: queue →
      s.bridge.conn = some c → s.opens id = some f → f.point = .awaiting none →
      ¬ s.Over closing → ∃ streamId, (T.streamNew dir c).1 = .ok streamId
  | _ => True

theorem step_conn {e : StreamsEvent κ} (hstep : s.step T e = some t) (hp : e ≠ .process)
    (hb : ∀ b, e ≠ .bridge b) : t.bridge.conn = s.bridge.conn := by
  cases e with
  | process => exact absurd rfl hp
  | bridge b => exact absurd rfl (hb b)
  | accept id dir =>
    obtain ⟨_, rfl⟩ := step_accept hstep
    rfl
  | pollAccept id branch =>
    obtain ⟨⟨dir, point⟩, _, hpoll⟩ := step_pollAccept hstep
    cases pollAccept_cases hpoll <;> rfl
  | dropAccept id =>
    obtain ⟨f, _, hdrop⟩ := step_dropAccept hstep
    unfold dropAccept at hdrop
    split at hdrop <;> cases hdrop <;> rfl
  | openStream dir =>
    cases hstep
    rfl
  | pollOpen id =>
    obtain ⟨f, _, hpoll⟩ := step_pollOpen hstep
    unfold pollOpen at hpoll
    split at hpoll
    · split at hpoll <;> cases hpoll <;> rfl
    all_goals
      cases hpoll
      try rfl
  | dropOpen id =>
    obtain ⟨f, _, hdrop⟩ := step_dropOpen hstep
    unfold dropOpen at hdrop
    split at hdrop <;> cases hdrop
    rfl

theorem over_step (hT : T.Closes closing) {e : StreamsEvent κ} (hs : s.Over closing)
    (hstays : s.StaysOver closing e) (hstep : s.step T e = some t) : t.Over closing := by
  have hother (hp : e ≠ .process) (hb : ∀ b, e ≠ .bridge b) : t.Over closing := by
    unfold Over
    rw [step_conn hstep hp hb, (step_watch hstep hb).2]
    exact hs
  cases e with
  | process =>
    obtain ⟨cmd, b, reply, hp, rfl⟩ := step_process hstep
    obtain ⟨_, _, hcn, _, hproc⟩ := Bridge.process_some hp
    obtain ⟨opens, opened, heq⟩ := deliver_frame { s with bridge := b } reply
    rw [heq]
    refine hs.imp (fun hclosed => by rw [hcn]; exact hclosed) fun hclosing c' hc' => ?_
    have hconn : (processConnCommand T s.bridge.conn cmd).1 = some c' := by
      rw [hproc]
      exact hc'
    cases hc : s.bridge.conn with
    | none =>
      rw [hc, processConnCommand_none] at hconn
      cases hconn
    | some c =>
      rw [hc] at hconn
      exact hT.kept cmd c c' hconn (hclosing c hc)
  | bridge b =>
    obtain ⟨bridge, hb, rfl⟩ := step_bridge hstep
    have hover : { s with bridge := bridge }.Over closing := by
      cases b with
      | engine conn =>
        obtain ⟨_, _, rfl⟩ := Bridge.step_engine hb
        exact hs.imp id hstays
      | callback cb =>
        obtain ⟨_, rfl⟩ := Bridge.step_callback hb
        exact hs
      | exec =>
        obtain ⟨op, todo, _, rfl⟩ := Bridge.step_exec hb
        exact hs.imp (SharedOp.exec_closed _ op) id
    unfold recordCreated
    split
    · exact hover
    · exact hover
  | accept | pollAccept | dropAccept | openStream | pollOpen | dropOpen =>
    exact hother (fun h => by cases h) fun _ h => by cases h

theorem openError_cases {id : Nat} {f : OpenFuture} {error : ConnectionError}
    (hf : s.opens id = some f) (herror : s.openResult f.point = some (.error error)) :
    s.bridge.cn.closed.isSome ∨ s.Holds (.opened (.error error)) := by
  obtain hclosed | hpoint := openResult_loss herror
  · rw [hclosed]
    exact Or.inl rfl
  · exact Or.inr ⟨id, f, hf, hpoint⟩

theorem opened_error {conn conn' : Option κ} {cmd : ConnCommand Nat} {id : Nat}
    {error : ConnectionError}
    (h : processConnCommand T conn cmd = (conn', some (id, .opened (.error error)))) :
    ∃ dir, cmd = openCommand dir id ∧
      ∀ c ∈ conn, ∀ streamId, (T.streamNew dir c).1 ≠ .ok streamId := by
  have hdir : ∀ dir (r : Option (Except TquicError Nat)), openReply r = .error error →
      (∀ c ∈ conn, r = some (T.streamNew dir c).1) →
      ∀ c ∈ conn, ∀ streamId, (T.streamNew dir c).1 ≠ .ok streamId := by
    intro dir r hr heq c hc streamId hok
    rw [heq c hc, hok] at hr
    cases hr
  cases cmd <;> cases conn <;> simp only [processConnCommand, onEngine, Prod.mk.injEq,
    Option.some.injEq, reduceCtorEq, and_false, Reply.opened.injEq] at h
  case openBiStream.none =>
    exact ⟨.bi, by rw [h.2.1]; rfl, fun c hc => by cases hc⟩
  case openUniStream.none =>
    exact ⟨.uni, by rw [h.2.1]; rfl, fun c hc => by cases hc⟩
  case openBiStream.some c =>
    refine ⟨.bi, by rw [h.2.1]; rfl, hdir .bi _ h.2.2 fun c' hc' => ?_⟩
    cases hc'
    rfl
  case openUniStream.some c =>
    refine ⟨.uni, by rw [h.2.1]; rfl, hdir .uni _ h.2.2 fun c' hc' => ?_⟩
    cases hc'
    rfl

theorem errorsTrue_step (hT : T.Closes closing) {e : StreamsEvent κ}
    (hs : ∀ error, s.Holds (.opened (.error error)) → s.Over closing)
    (hstays : s.StaysOver closing e) (hgranted : s.Granted T closing e)
    (hstep : s.step T e = some t) :
    ∀ error, t.Holds (.opened (.error error)) → t.Over closing := by
  intro error hholds
  apply over_step hT _ hstays hstep
  rcases step_reply hstep hholds with hheld | ⟨rfl, cmd, queue, conn, id, f, hqueue, hproc, hf, hwait⟩
  · exact hs error hheld
  · by_contra hover
    obtain ⟨dir, rfl, hrefused⟩ := opened_error hproc
    cases hc : s.bridge.conn with
    | none => exact hover (Or.inr fun c hc' => by rw [hc] at hc'; cases hc')
    | some c =>
      obtain ⟨streamId, hok⟩ := hgranted c dir id queue f hqueue hc hf hwait hover
      exact hrefused c hc streamId hok

theorem refused_step (hT : T.Closes closing) {c : κ} {dir : Dir} {id : Nat}
    {queue : List (ConnCommand Nat)} {f : OpenFuture}
    (hqueue : s.bridge.queue = openCommand dir id :: queue) (hc : s.bridge.conn = some c)
    (hf : s.opens id = some f) (hwait : f.point = .awaiting none) (hover : ¬ s.Over closing)
    (hrefused : ∀ streamId, (T.streamNew dir c).1 ≠ .ok streamId)
    (hstep : s.step T .process = some t) : ¬ t.ErrorsTrue closing := by
  obtain ⟨hopen, hclosing⟩ := not_or.mp hover
  have hreply : openReply (some (T.streamNew dir c).1) = .error .locallyClosed := by
    cases hr : (T.streamNew dir c).1 with
    | ok streamId => exact absurd hr (hrefused streamId)
    | error e => rfl
  have hproc : processConnCommand T (some c) (openCommand dir id) =
      (some (T.streamNew dir c).2, some (id, .opened (openReply (some (T.streamNew dir c).1)))) := by
    cases dir <;> rfl
  obtain ⟨cmd, b, reply, hp, rfl⟩ := step_process hstep
  obtain ⟨_, hqueue', hcn, _, hproc'⟩ := Bridge.process_some hp
  obtain ⟨rfl, _⟩ := List.cons.inj (hqueue.symm.trans hqueue')
  rw [hc, hproc, hreply] at hproc'
  obtain ⟨hconn, rfl⟩ := Prod.mk.inj hproc'
  obtain ⟨dir', point⟩ := f
  subst hwait
  intro htrue
  have hdeliver : ({ s with bridge := b }.recordOpened
      (some (id, .opened (.error .locallyClosed)))).deliver
        (some (id, .opened (.error .locallyClosed))) =
      { s with bridge := b }.setOpen id
        (some ⟨dir', .awaiting (some (.opened (.error .locallyClosed)))⟩) := by
    simp only [recordOpened, deliver, hf]
  rw [hdeliver] at htrue
  rcases htrue id _ .locallyClosed (Function.update_self ..) rfl with hclosed | hclosed
  · change b.cn.closed.isSome = true at hclosed
    rw [hcn] at hclosed
    exact hopen hclosed
  · have hclosed' := hT.opening c dir (hclosed _ hconn.symm)
    exact hclosing fun c' hc' => by
      rw [hc] at hc'
      cases hc'
      exact hclosed'

/-- In a run in which the engine grants every stream that is waited for on a connection
in good health, an open future returns an error only on a connection that is over; where
it does not grant one, the next state has a future with a false error. -/
theorem open_errors_true (hT : T.Closes closing) (conn : κ) (remoteAddr : SocketAddr)
    (isServer : Bool) :
    (∀ s, Reach (step T) (fun s e => s.StaysOver closing e ∧ s.Granted T closing e)
        (.init conn remoteAddr isServer) s → s.ErrorsTrue closing) ∧
    ∀ s e t, Reach (step T) (StaysOver closing) (.init conn remoteAddr isServer) s →
      ¬ s.Granted T closing e → s.step T e = some t → ¬ t.ErrorsTrue closing := by
  constructor
  · intro s hreach id f error hf herror
    have hheld : ∀ error, s.Holds (.opened (.error error)) → s.Over closing := by
      apply hreach.invariant
      · intro s e t hs hguard hstep
        exact errorsTrue_step hT hs hguard.1 hguard.2 hstep
      · rintro error ⟨id, f, hf, _⟩
        cases hf
    exact (openError_cases hf herror).elim Or.inl (hheld error)
  · intro s e t _ hgranted hstep
    cases e with
    | process =>
      simp only [Granted, not_forall] at hgranted
      obtain ⟨c, dir, id, queue, f, hqueue, hc, hf, hwait, hover, hrefused⟩ := hgranted
      exact refused_step hT hqueue hc hf hwait hover (not_exists.mp hrefused) hstep
    | _ => exact absurd trivial hgranted

/-- An engine whose peer allows `n` streams: the state counts those left. -/
def Tquic.limited : Tquic Nat where
  close n _ _ _ := n
  streamBidiNew
    | 0 => (.error (.other "StreamLimitError"), 0)
    | n + 1 => (.ok (4 * n), n)
  streamUniNew
    | 0 => (.error (.other "StreamLimitError"), 0)
    | n + 1 => (.ok (4 * n + 2), n)
  streamWrite n _ _ _ := (.error .done, n)
  streamRead n _ _ := (.error .done, n)
  streamShutdown n _ _ _ := n
  streamSetPriority n _ _ _ := n
  pathsIter _ := []
  getPathStats _ _ _ := .error .done
  addPath n _ _ := (.error .done, n)
  abandonPath n _ _ := (.error .done, n)
  migratePath n _ _ := (.error .done, n)
  displayError _ := "error"

theorem limited_closes : Tquic.limited.Closes fun _ => False :=
  ⟨fun _ _ _ _ => id, fun _ _ => id⟩

/-- One stream allowed, one opened; the connection is lost while a second one is asked for. -/
def lostOpenRun : List (StreamsEvent Nat) :=
  [.openStream .bi, .pollOpen 0, .pollOpen 0, .process, .pollOpen 0, .openStream .bi, .pollOpen 1,
    .pollOpen 1, .bridge (.callback (.onConnClosed ⟨none, none, true, false, false⟩)),
    .bridge .exec, .bridge .exec, .bridge (.engine none), .process]

theorem open_errors_true_lost :
    ∃ s, run (step Tquic.limited) (.init 1 .unspecified false) lostOpenRun = some s ∧
      s.opened = [0] ∧
      (∃ f error, s.opens 1 = some f ∧ s.openResult f.point = some (.error error)) ∧
      s.ErrorsTrue fun _ => False := by
  obtain ⟨s, hrun, hopened, herror, hguard⟩ :
      ∃ s, run (step Tquic.limited) (.init 1 .unspecified false) lostOpenRun = some s ∧
        s.opened = [0] ∧
        (∃ f error, s.opens 1 = some f ∧ s.openResult f.point = some (.error error)) ∧
        Along (step Tquic.limited)
          (fun s e => s.StaysOver (fun _ => False) e ∧ s.Granted Tquic.limited (fun _ => False) e)
          (.init 1 .unspecified false) lostOpenRun := by
    refine ⟨_, rfl, rfl, ⟨_, _, rfl, rfl⟩, ⟨trivial, trivial⟩, ⟨trivial, trivial⟩,
      ⟨trivial, trivial⟩, ⟨trivial, ?_⟩, ⟨trivial, trivial⟩, ⟨trivial, trivial⟩, ⟨trivial, trivial⟩,
      ⟨trivial, trivial⟩, ⟨trivial, trivial⟩, ⟨trivial, trivial⟩, ⟨trivial, trivial⟩,
      ⟨nofun, trivial⟩, ⟨trivial, ?_⟩, trivial⟩
    · intro c dir id queue f hqueue hc
      cases hc
      cases dir with
      | bi => exact fun _ _ _ => ⟨0, rfl⟩
      | uni => cases hqueue
    · intro c dir id queue f _ hc
      cases hc
  exact ⟨s, hrun, hopened, herror,
    (open_errors_true limited_closes 1 .unspecified false).1 s (reach_of_along hrun hguard)⟩

/-- With no stream left to open, `open_bi` reports `LocallyClosed` on a live connection. -/
theorem limit_reported_closed :
    ¬ ∀ s, Reach (step Tquic.limited) (StaysOver fun _ => False) (.init 0 .unspecified false) s →
      s.ErrorsTrue fun _ => False := by
  intro hall
  obtain ⟨s, hrun, hclosed, hconn, f, hf, herror, hstays⟩ : ∃ s,
      run (step Tquic.limited) (.init 0 .unspecified false)
        [.openStream .bi, .pollOpen 0, .pollOpen 0, .process] = some s ∧
      s.bridge.cn.closed = none ∧ s.bridge.conn = some 0 ∧
      ∃ f, s.opens 0 = some f ∧ s.openResult f.point = some (.error .locallyClosed) ∧
        Along (step Tquic.limited) (StaysOver fun _ => False) (.init 0 .unspecified false)
          [.openStream .bi, .pollOpen 0, .pollOpen 0, .process] :=
    ⟨_, rfl, rfl, rfl, _, rfl, rfl, trivial, trivial, trivial, trivial, trivial⟩
  have hs := reach_of_along hrun hstays
  rcases hall s hs 0 f _ hf herror with hover | hover
  · rw [hclosed] at hover
    cases hover
  · exact hover 0 hconn

end Streams

end TokioTquic
