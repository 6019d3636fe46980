import TokioTquic.Operations

/-!
# Why a connection was lost

The bridge thread answers the commands of a connection that is gone with
`LocallyClosed`, whatever the watch holds. In a run where no future gets such an
answer after the close, all operations report the error `on_conn_closed` recorded.
-/

namespace TokioTquic
open Async
set_option autoImplicit false

universe u v
variable {κ : Type u} {ρ : Type v}

/-! ## What replies and results tell -/

theorem openReply_error {x : Option (Except TquicError Nat)} {error : ConnectionError}
    (h : openReply x = .error error) : error = .locallyClosed := by
  unfold openReply at h
  split at h <;> cases h <;> rfl

theorem writeReply_loss {x : Option (Except TquicError Nat)} {e : WriteError}
    {error : ConnectionError} (h : writeReply x = .error e) (he : e.loss = some error) :
    error = .locallyClosed := by
  unfold writeReply at h
  split at h <;> cases h <;> cases he
  rfl

theorem readReply_loss {maxLen : Nat} {x : Option (Except TquicError (Bytes × Bool))}
    {e : ReadError} {error : ConnectionError} (h : readReply maxLen x = .error e)
    (he : e.loss = some error) : error = .locallyClosed := by
  unfold readReply at h
  split at h <;> cases h <;> cases he
  rfl

theorem Reply.loss_cases {r : Reply} {error : ConnectionError} (h : r.loss = some error) :
    r = .opened (.error error) ∨ (∃ e, r = .written (.error e) ∧ e.loss = some error) ∨
      ∃ e, r = .read (.error e) ∧ e.loss = some error := by
  unfold loss at h
  split at h
  · cases h
    exact Or.inl rfl
  · exact Or.inr (Or.inl ⟨_, rfl, h⟩)
  · exact Or.inr (Or.inr ⟨_, rfl, h⟩)
  · cases h

theorem processConnCommand_loss {T : Tquic κ} {conn conn' : Option κ} {cmd : ConnCommand ρ}
    {respond : ρ} {r : Reply} {error : ConnectionError}
    (h : processConnCommand T conn cmd = (conn', some (respond, r)))
    (hr : r.loss = some error) : error = .locallyClosed := by
  have hreply : (processConnCommand T conn cmd).2 = some (respond, r) := congrArg Prod.snd h
  rcases Reply.loss_cases hr with rfl | ⟨e, rfl, he⟩ | ⟨e, rfl, he⟩ <;>
    cases cmd <;> simp only [processConnCommand, Option.some.injEq, Prod.mk.injEq, reduceCtorEq,
      and_false, Reply.opened.injEq, Reply.written.injEq, Reply.read.injEq] at hreply
  · exact openReply_error hreply.2
  · exact openReply_error hreply.2
  · exact writeReply_loss hreply.2 he
  · exact readReply_loss hreply.2 he

/-- A loop reports the loss its `read` or `write` returned. -/
theorem Caller.onCompletion_loss {caller : Caller} {c : Completion} {o : Outcome}
    {error : ConnectionError} (h : caller.onCompletion c = some o) (ho : o.loss = some error) :
    c.loss = some error := by
  cases onCompletion_yields h with
  | readError | exactError | toEndError | writeError | allError => exact ho
  | _ => cases ho

namespace StreamIo

theorem onReply_loss {s s' : StreamIo κ} {h : Half} {buf : Bytes} {r : Reply} {c : Completion}
    {error : ConnectionError} (hr : s.onReply h buf r = some (s', .ret c))
    (hc : c.loss = some error) : r.loss = some error := by
  unfold onReply at hr
  split at hr
  · rename_i r
    rcases r with e | ⟨data, fin⟩
    · cases hr
      exact hc
    · simp only [RecvStream.onReply] at hr
      split at hr
      · cases hr
      · split at hr <;> cases hr <;> cases hc
  · rename_i r
    rcases r with e | n
    · cases hr
      exact hc
    · cases n <;> cases hr
      cases hc
  · cases hr

theorem result_loss {s : StreamIo κ} {h : Half} {f : IoFuture} {c : Completion}
    {error : ConnectionError} (hc : s.result h f = some c) (hloss : c.loss = some error) :
    s.bridge.cn.closed = some error ∨
      ∃ r, f.point = .reply (some r) ∧ r.loss = some error := by
  unfold result at hc
  split at hc
  · unfold alreadyClosed at hc
    split at hc <;> split at hc <;> cases hc <;> cases hloss
  · rename_i r hpoint
    split at hc
    · rename_i hreply
      cases hc
      exact Or.inr ⟨r, hpoint, onReply_loss hreply hloss⟩
    · cases hc
  case h_3 | h_4 =>
    obtain ⟨err, hclosed, rfl⟩ := Option.map_eq_some_iff.mp hc
    cases h <;> cases hloss <;> exact Or.inl hclosed
  · cases hc

theorem Holds.of_self {s s' : StreamIo κ} {h : Half}
    (hother : ∀ g, g ≠ h → s'.futures g = s.futures g)
    (hself : ∀ f ∈ s'.futures h, ∀ r, f.point ≠ .reply (some r)) {r : Reply}
    (hr : s'.Holds r) : s.Holds r := by
  obtain ⟨g, f, hf, hpoint⟩ := hr
  by_cases hg : g = h
  · subst hg
    exact absurd hpoint (hself f hf r)
  · exact ⟨g, f, hother g hg ▸ hf, hpoint⟩

theorem poll_unread {s s' : StreamIo κ} {h : Half} {f : IoFuture} (hs : s.poll h f = some s') :
    ∀ f' ∈ s'.futures h, ∀ r, f'.point ≠ .reply (some r) := by
  intro f' hf' r
  have hgoto : ∀ (t : StreamIo κ) (p : Point), f' ∈ (t.goto h f p).futures h →
      f'.point = p := by
    intro t p hf'
    rw [goto_self] at hf'
    exact (Option.mem_some.mp hf').symm ▸ rfl
  cases poll_cases hs with
  | ended | returned | lost =>
    rw [complete_self] at hf'
    cases hf'
  | sent | resumed | unserved | entered | registered =>
    rw [hgoto _ _ hf']
    nofun
  | waited =>
    rw [hgoto _ _ hf']
    split <;> nofun

theorem step_holds {T : Tquic κ} {s s' : StreamIo κ} {e : IoEvent κ}
    (hstep : s.step T e = some s') {r : Reply} (hr : s'.Holds r) :
    s.Holds r ∨ (e = .process ∧ s.NextAwaited ∧
      ∀ error, r.loss = some error → error = .locallyClosed) := by
  cases e with
  | process =>
    obtain ⟨cmd, b, reply, hp, rfl, _, hfut⟩ := process_futures hstep
    obtain ⟨_, hqueue, _, _, hproc⟩ := Bridge.process_some hp
    obtain ⟨h, f', hf', hpoint⟩ := hr
    rcases hfut h with hsame | ⟨f, r', hf, hwait, rfl, hanswer⟩
    · exact Or.inl ⟨h, f', hsame ▸ hf', hpoint⟩
    · rw [hanswer] at hf'
      cases hf'
      cases hpoint
      exact Or.inr ⟨rfl, ⟨cmd, _, h, f, hqueue, processConnCommand_reply hproc, hf, hwait⟩,
        fun error => processConnCommand_loss hproc⟩
  | bridge e =>
    obtain ⟨b, _, rfl⟩ := step_bridge hstep
    exact Or.inl hr
  | call h buf =>
    obtain ⟨_, rfl⟩ := step_call hstep
    refine Or.inl (Holds.of_self (h := h) (fun g hg => Function.update_of_ne hg ..) ?_ hr)
    intro f hf
    simp only [Function.update_self, Option.mem_some] at hf
    subst hf
    nofun
  | poll h =>
    obtain ⟨f, _, hpoll⟩ := step_poll hstep
    exact Or.inl (Holds.of_self (fun g hg => (poll_other hg hpoll).1) (poll_unread hpoll) hr)
  | drop h =>
    obtain ⟨f, _, hdrop⟩ := step_drop hstep
    refine Or.inl (Holds.of_self (fun g hg => (drop_other hg hdrop).1) ?_ hr)
    rw [(drop_future hdrop).2.2]
    nofun

theorem step_watch {T : Tquic κ} {s s' : StreamIo κ} {e : IoEvent κ}
    (hstep : s.step T e = some s') (he : ∀ b, e ≠ .bridge b) :
    s'.bridge.todo = s.bridge.todo ∧ s'.bridge.cn.closed = s.bridge.cn.closed := by
  cases e with
  | process =>
    obtain ⟨cmd, b, reply, hp, rfl, _, _⟩ := process_futures hstep
    obtain ⟨htodo, _, hcn, htodo', _⟩ := Bridge.process_some hp
    exact ⟨htodo'.trans htodo.symm, by rw [hcn]⟩
  | bridge e => exact absurd rfl (he e)
  | call h buf =>
    obtain ⟨_, rfl⟩ := step_call hstep
    exact ⟨rfl, rfl⟩
  | poll h =>
    obtain ⟨f, _, hpoll⟩ := step_poll hstep
    exact (poll_bridge hpoll).2
  | drop h =>
    obtain ⟨f, _, hdrop⟩ := step_drop hstep
    exact (drop_bridge hdrop).2

end StreamIo

namespace Streams

theorem acceptResult_loss {s : Streams κ} {point : AcceptPoint} {error : ConnectionError}
    (h : s.acceptResult point = some (.error error)) : s.bridge.cn.closed = some error := by
  unfold acceptResult at h
  split at h
  case h_1 | h_2 =>
    obtain ⟨err, hclosed, heq⟩ := Option.map_eq_some_iff.mp h
    cases heq
    exact hclosed
  case h_3 | h_4 => cases h

theorem openResult_loss {s : Streams κ} {point : OpenPoint} {error : ConnectionError}
    (h : s.openResult point = some (.error error)) :
    s.bridge.cn.closed = some error ∨ point = .awaiting (some (.opened (.error error))) := by
  unfold openResult at h
  split at h
  · obtain ⟨err, hclosed, heq⟩ := Option.map_eq_some_iff.mp h
    cases heq
    exact Or.inl hclosed
  · cases h
    exact Or.inr rfl
  · cases h

theorem Holds.of_update {s s' : Streams κ} {id : Nat} {f' : Option OpenFuture}
    (hopens : s'.opens = Function.update s.opens id f')
    (hf' : ∀ f ∈ f', ∀ r, f.point ≠ .awaiting (some r)) {r : Reply} (hr : s'.Holds r) :
    s.Holds r := by
  obtain ⟨id', f, hf, hpoint⟩ := hr
  rw [hopens] at hf
  by_cases hid : id' = id
  · subst hid
    rw [Function.update_self] at hf
    exact absurd hpoint (hf' f hf r)
  · rw [Function.update_of_ne hid] at hf
    exact ⟨id', f, hf, hpoint⟩

theorem pollOpen_unread {s s' : Streams κ} {id : Nat} {dir : Dir} {point : OpenPoint}
    (hstep : s.pollOpen id dir point = some s') :
    ∃ f', s'.opens = Function.update s.opens id f' ∧
      ∀ f ∈ f', ∀ r, f.point ≠ .awaiting (some r) := by
  unfold pollOpen at hstep
  split at hstep
  · split at hstep <;> cases hstep
    · exact ⟨none, rfl, nofun⟩
    · refine ⟨_, rfl, ?_⟩
      rintro _ ⟨⟩
      nofun
  · cases hstep
    refine ⟨_, rfl, ?_⟩
    rintro _ ⟨⟩
    nofun
  · cases hstep
    exact ⟨none, rfl, nofun⟩
  · cases hstep
    exact ⟨none, rfl, nofun⟩
  · cases hstep

theorem deliver_holds {s : Streams κ} {x : Option (Nat × Reply)} {r : Reply}
    (hr : (s.deliver x).Holds r) :
    s.Holds r ∨ ∃ id f, x = some (id, r) ∧ s.opens id = some f ∧ f.point = .awaiting none := by
  unfold deliver at hr
  split at hr
  · rename_i id r'
    split at hr
    · rename_i dir hf
      obtain ⟨id', f', hf', hpoint⟩ := hr
      by_cases hid : id' = id
      · subst hid
        simp only [setOpen, Function.update_self, Option.some.injEq] at hf'
        subst hf'
        cases hpoint
        exact Or.inr ⟨_, _, rfl, hf, rfl⟩
      · simp only [setOpen, Function.update_of_ne hid] at hf'
        exact Or.inl ⟨id', f', hf', hpoint⟩
    · exact Or.inl hr
  · exact Or.inl hr

theorem recordOpened_opens (s : Streams κ) (x : Option (Nat × Reply)) :
    (s.recordOpened x).opens = s.opens := by
  unfold recordOpened
  split <;> rfl

theorem recordCreated_opens (s : Streams κ) (e : BridgeEvent κ) :
    (s.recordCreated e).opens = s.opens := by
  unfold recordCreated
  split <;> rfl

theorem step_reply {T : Tquic κ} {s s' : Streams κ} {e : StreamsEvent κ}
    (hstep : s.step T e = some s') {r : Reply} (hr : s'.Holds r) :
    s.Holds r ∨ (e = .process ∧ ∃ cmd queue conn id f, s.bridge.queue = cmd :: queue ∧
      processConnCommand T s.bridge.conn cmd = (conn, some (id, r)) ∧
      s.opens id = some f ∧ f.point = .awaiting none) := by
  cases e with
  | process =>
    obtain ⟨cmd, b, reply, hp, rfl⟩ := step_process hstep
    obtain ⟨_, hqueue, _, _, hproc⟩ := Bridge.process_some hp
    have hopens : ({ s with bridge := b }.recordOpened reply).opens = s.opens :=
      recordOpened_opens _ reply
    rcases deliver_holds hr with ⟨id, f, hf, hpoint⟩ | ⟨id, f, rfl, hf, hwait⟩
    · rw [hopens] at hf
      exact Or.inl ⟨id, f, hf, hpoint⟩
    · rw [hopens] at hf
      exact Or.inr ⟨rfl, cmd, _, _, id, f, hqueue, hproc, hf, hwait⟩
  | bridge e =>
    obtain ⟨b, _, rfl⟩ := step_bridge hstep
    obtain ⟨id, f, hf, hpoint⟩ := hr
    rw [recordCreated_opens] at hf
    exact Or.inl ⟨id, f, hf, hpoint⟩
  | accept id dir =>
    obtain ⟨_, rfl⟩ := step_accept hstep
    exact Or.inl hr
  | pollAccept id branch =>
    obtain ⟨f, _, hpoll⟩ := step_pollAccept hstep
    obtain ⟨id', g, hg, hpoint⟩ := hr
    rw [(pollAccept_frame hpoll).1] at hg
    exact Or.inl ⟨id', g, hg, hpoint⟩
  | dropAccept id =>
    obtain ⟨f, _, hdrop⟩ := step_dropAccept hstep
    obtain ⟨id', g, hg, hpoint⟩ := hr
    rw [(dropAccept_frame hdrop).1] at hg
    exact Or.inl ⟨id', g, hg, hpoint⟩
  | openStream dir =>
    cases hstep
    refine Or.inl (Holds.of_update rfl ?_ hr)
    rintro _ ⟨⟩
    nofun
  | pollOpen id =>
    obtain ⟨f, _, hpoll⟩ := step_pollOpen hstep
    obtain ⟨f', hopens, hunread⟩ := pollOpen_unread hpoll
    exact Or.inl (Holds.of_update hopens hunread hr)
  | dropOpen id =>
    obtain ⟨f, _, hdrop⟩ := step_dropOpen hstep
    unfold dropOpen at hdrop
    split at hdrop <;> cases hdrop
    exact Or.inl (Holds.of_update rfl (by intro _ h; cases h) hr)

theorem step_holds {T : Tquic κ} {s s' : Streams κ} {e : StreamsEvent κ}
    (hstep : s.step T e = some s') {r : Reply} (hr : s'.Holds r) :
    s.Holds r ∨ (e = .process ∧ s.NextAwaited ∧
      ∀ error, r.loss = some error → error = .locallyClosed) := by
  refine (step_reply hstep hr).imp_right ?_
  rintro ⟨rfl, cmd, queue, conn, id, f, hqueue, hproc, hf, hwait⟩
  exact ⟨rfl, ⟨cmd, queue, id, f, hqueue, processConnCommand_reply hproc, hf, hwait⟩,
    fun error => processConnCommand_loss hproc⟩

theorem step_watch {T : Tquic κ} {s s' : Streams κ} {e : StreamsEvent κ}
    (hstep : s.step T e = some s') (he : ∀ b, e ≠ .bridge b) :
    s'.bridge.todo = s.bridge.todo ∧ s'.bridge.cn.closed = s.bridge.cn.closed := by
  cases e with
  | process =>
    obtain ⟨cmd, b, reply, hp, rfl⟩ := step_process hstep
    obtain ⟨htodo, _, hcn, htodo', _⟩ := Bridge.process_some hp
    have hsame := deliver_same { s with bridge := b } reply
    exact ⟨(hsame.todo.trans htodo').trans htodo.symm, by rw [hsame.cn, hcn]⟩
  | bridge e => exact absurd rfl (he e)
  | accept id dir =>
    obtain ⟨_, rfl⟩ := step_accept hstep
    exact ⟨rfl, rfl⟩
  | pollAccept id branch =>
    obtain ⟨f, _, hpoll⟩ := step_pollAccept hstep
    exact ⟨(pollAccept_frame hpoll).2.1, (pollAccept_own hpoll).closed⟩
  | dropAccept id =>
    obtain ⟨f, _, hdrop⟩ := step_dropAccept hstep
    exact ⟨(dropAccept_frame hdrop).2.1, (dropAccept_own hdrop).closed⟩
  | openStream dir =>
    cases hstep
    exact ⟨rfl, rfl⟩
  | pollOpen id =>
    obtain ⟨f, _, hpoll⟩ := step_pollOpen hstep
    exact ⟨(pollOpen_same hpoll).todo, by rw [(pollOpen_same hpoll).cn]⟩
  | dropOpen id =>
    obtain ⟨f, _, hdrop⟩ := step_dropOpen hstep
    exact ⟨(dropOpen_same hdrop).todo, by rw [(dropOpen_same hdrop).cn]⟩

end Streams

namespace Operations

theorem streams_cn (s : Operations κ) : s.streams.bridge.cn = s.io.bridge.cn := by
  rw [s.shared]
  rfl

theorem streams_todo (s : Operations κ) : s.streams.bridge.todo = s.io.bridge.todo := by
  rw [s.shared]
  rfl

theorem reports_cases {s : Operations κ} {op : Operation} {error : ConnectionError}
    (h : s.reports op = some error) :
    s.closeReason = some error ∨ ∃ r, s.Holds r ∧ r.loss = some error := by
  cases op with
  | io half =>
    simp only [reports] at h
    split at h
    · rename_i f caller hf _
      obtain ⟨o, ho, hloss⟩ := Option.bind_eq_some_iff.mp h
      obtain ⟨c, hc, hcaller⟩ := Option.bind_eq_some_iff.mp ho
      rcases StreamIo.result_loss hc (Caller.onCompletion_loss hcaller hloss) with
        hclosed | ⟨r, hpoint, hr⟩
      · exact Or.inl hclosed
      · exact Or.inr ⟨r, Or.inl ⟨half, f, hf, hpoint⟩, hr⟩
    · cases h
  | accept id =>
    simp only [reports] at h
    split at h
    · rename_i err hresult
      cases h
      obtain ⟨f, _, hf⟩ := Option.bind_eq_some_iff.mp hresult
      have hclosed := Streams.acceptResult_loss hf
      rw [s.streams_cn] at hclosed
      exact Or.inl hclosed
    · cases h
  | openStream id =>
    simp only [reports] at h
    split at h
    · rename_i err hresult
      cases h
      obtain ⟨f, hopen, hf⟩ := Option.bind_eq_some_iff.mp hresult
      rcases Streams.openResult_loss hf with hclosed | hpoint
      · rw [s.streams_cn] at hclosed
        exact Or.inl hclosed
      · exact Or.inr ⟨_, Or.inr ⟨id, f, hopen, hpoint⟩, rfl⟩
    · cases h
  | closed id =>
    simp only [reports] at h
    split at h
    · exact Or.inl h
    · cases h
  | closeReason => exact Or.inl h

/-! ## What an event does -/

/-- The watch and the callback stay as they are, and no reply is new. -/
structure Calm (s s' : Operations κ) : Prop where
  todo : s'.io.bridge.todo = s.io.bridge.todo
  closed : s'.closeReason = s.closeReason
  holds : ∀ r, s'.Holds r → s.Holds r

inductive Turn (s : Operations κ) : OperationsEvent κ → Operations κ → Prop where
  | calm {e : OperationsEvent κ} {s' : Operations κ} : s.Calm s' → Turn s e s'
  | answered {s' : Operations κ} :
      s'.io.bridge.todo = s.io.bridge.todo → s'.closeReason = s.closeReason →
      (∀ r, s'.Holds r → s.Holds r ∨
        (s.NextAwaited ∧ ∀ error, r.loss = some error → error = .locallyClosed)) →
        Turn s .process s'
  | bridge {e : BridgeEvent κ} {s' : Operations κ} :
      s.io.bridge.step e = some s'.io.bridge → (∀ r, s'.Holds r → s.Holds r) →
        Turn s (.bridge e) s'

theorem moveIo_calm {T : Tquic κ} {s : Operations κ} {e : IoEvent κ} {io : StreamIo κ}
    (hio : s.io.step T e = some io) (hprocess : e ≠ .process) (he : ∀ b, e ≠ .bridge b) :
    s.Calm (s.moveIo io s.streams) where
  todo := (StreamIo.step_watch hio he).1
  closed := (StreamIo.step_watch hio he).2
  holds := by
    rintro r (hr | hr)
    · rcases StreamIo.step_holds hio hr with hold | ⟨heq, _⟩
      · exact Or.inl hold
      · exact absurd heq hprocess
    · exact Or.inr hr

theorem moveStreams_calm {T : Tquic κ} {s : Operations κ} {e : StreamsEvent κ}
    {streams : Streams κ} (hstreams : s.streams.step T e = some streams)
    (hprocess : e ≠ .process) (he : ∀ b, e ≠ .bridge b) : s.Calm (s.moveStreams streams) where
  todo := (Streams.step_watch hstreams he).1.trans s.streams_todo
  closed := (Streams.step_watch hstreams he).2.trans (by rw [s.streams_cn]; rfl)
  holds := by
    rintro r (hr | hr)
    · exact Or.inl hr
    · rcases Streams.step_holds hstreams hr with hold | ⟨heq, _⟩
      · exact Or.inr hold
      · exact absurd heq hprocess

theorem Calm.trans {s t u : Operations κ} (h : s.Calm t) (h' : t.Calm u) : s.Calm u where
  todo := h'.todo.trans h.todo
  closed := h'.closed.trans h.closed
  holds := fun r hr => h.holds r (h'.holds r hr)

theorem setCaller_calm (s : Operations κ) (h : Half) (caller : Option Caller) :
    s.Calm (s.setCaller h caller) := ⟨rfl, rfl, fun _ hr => hr⟩

theorem setClosing_calm (s : Operations κ) (id : Nat) (point : Option ClosedPoint) :
    s.Calm (s.setClosing id point) := ⟨rfl, rfl, fun _ hr => hr⟩

theorem finish_calm {T : Tquic κ} {s s' : Operations κ} {h : Half} {c : Completion}
    (hstep : s.finish T h c = some s') : s.Calm s' := by
  unfold finish at hstep
  split at hstep
  · obtain ⟨io, hio, rfl⟩ := Option.map_eq_some_iff.mp hstep
    exact (moveIo_calm hio nofun nofun).trans (setCaller_calm _ h _)
  · cases hstep
    exact setCaller_calm s h none
  · cases hstep

theorem turn_process {T : Tquic κ} {s s' : Operations κ} (hstep : s.step T .process = some s') :
    s.Turn .process s' := by
  simp only [step] at hstep
  split at hstep
  · cases hstep
  · rename_i order horder
    obtain ⟨io, hio, rfl⟩ := Option.map_eq_some_iff.mp hstep
    obtain ⟨htodo, hclosed⟩ := StreamIo.step_watch hio nofun
    refine .answered htodo hclosed ?_
    rintro r (hr | hr)
    · rcases StreamIo.step_holds hio hr with hold | ⟨_, hnext, hloss⟩
      · exact Or.inl (Or.inl hold)
      · exact Or.inr ⟨by simpa only [NextAwaited, horder] using hnext, hloss⟩
    · exact Or.inl (Or.inr hr)
  · rename_i order horder
    obtain ⟨streams, hstreams, rfl⟩ := Option.map_eq_some_iff.mp hstep
    obtain ⟨htodo, hclosed⟩ := Streams.step_watch hstreams nofun
    refine .answered (htodo.trans s.streams_todo) (hclosed.trans (by rw [s.streams_cn]; rfl)) ?_
    rintro r (hr | hr)
    · exact Or.inl (Or.inl hr)
    · rcases Streams.step_holds hstreams hr with hold | ⟨_, hnext, hloss⟩
      · exact Or.inl (Or.inr hold)
      · exact Or.inr ⟨by simpa only [NextAwaited, horder] using hnext, hloss⟩

theorem turn_step {T : Tquic κ} {s s' : Operations κ} {e : OperationsEvent κ}
    (hstep : s.step T e = some s') : s.Turn e s' := by
  cases e with
  | process => exact turn_process hstep
  | bridge e =>
    simp only [step] at hstep
    split at hstep <;> cases hstep
    rename_i io streams hio hstreams
    obtain ⟨b, hb, rfl⟩ := StreamIo.step_bridge hio
    refine .bridge hb ?_
    rintro r (hr | hr)
    · exact Or.inl hr
    · rcases Streams.step_holds hstreams hr with hold | ⟨heq, _⟩
      · exact Or.inr hold
      · cases heq
  | call h c =>
    simp only [step] at hstep
    split at hstep
    · split at hstep
      · obtain ⟨io, hio, rfl⟩ := Option.map_eq_some_iff.mp hstep
        exact .calm ((moveIo_calm hio nofun nofun).trans (setCaller_calm _ h _))
      · cases hstep
        exact .calm ⟨rfl, rfl, fun _ hr => hr⟩
    · cases hstep
  | poll h =>
    simp only [step] at hstep
    split at hstep
    · rename_i f io _ hio
      have hmove := moveIo_calm hio nofun nofun
      split at hstep
      · exact .calm (hmove.trans (finish_calm hstep))
      · cases hstep
        exact .calm hmove
    · cases hstep
  | drop h =>
    obtain ⟨io, hio, rfl⟩ := Option.map_eq_some_iff.mp hstep
    exact .calm ((moveIo_calm hio nofun nofun).trans (setCaller_calm _ h none))
  | streams e =>
    simp only [step] at hstep
    split at hstep
    · cases hstep
    · cases hstep
    · rename_i hprocess hbridge
      obtain ⟨streams, hstreams, rfl⟩ := Option.map_eq_some_iff.mp hstep
      exact .calm (moveStreams_calm hstreams hprocess hbridge)
  | closed id =>
    simp only [step] at hstep
    split at hstep <;> cases hstep
    exact .calm (setClosing_calm s id _)
  | pollClosed id =>
    simp only [step] at hstep
    split at hstep
    · cases hstep
      exact .calm (setClosing_calm s id _)
    · split at hstep <;> cases hstep <;> exact .calm (setClosing_calm s id _)
    · split at hstep <;> cases hstep
      exact .calm (setClosing_calm s id _)
    · cases hstep
  | dropClosed id =>
    simp only [step] at hstep
    split at hstep <;> cases hstep <;> exact .calm (setClosing_calm s id none)

/-! ## One answer -/

/-- The callback that is running records at most one error, the watch holds at most
one, and no reply contradicts it. -/
structure Sound (s : Operations κ) : Prop where
  once : ∀ error, .sendClosed error ∉ s.io.bridge.todo.tail
  last : ∀ e, s.closeReason = some e → ∀ error, .sendClosed error ∉ s.io.bridge.todo
  refusals : ∀ r, s.Holds r → ∀ error, r.loss = some error → error = .locallyClosed
  agreed : ∀ e, s.closeReason = some e → e ≠ .locallyClosed → ∀ r, s.Holds r → r.loss = none

theorem Sound.reports {s : Operations κ} (hs : s.Sound) {e : ConnectionError}
    (he : s.closeReason = some e) {op : Operation} {error : ConnectionError}
    (h : s.reports op = some error) : error = e := by
  rcases reports_cases h with hclosed | ⟨r, hr, hloss⟩
  · exact Option.some.inj (hclosed.symm.trans he)
  · by_cases hlocal : e = .locallyClosed
    · rw [hlocal]
      exact hs.refusals r hr error hloss
    · rw [hs.agreed e he hlocal r hr] at hloss
      cases hloss

theorem Sound.calm {s s' : Operations κ} (hs : s.Sound) (h : s.Calm s') : s'.Sound where
  once := by
    rw [h.todo]
    exact hs.once
  last := by
    rw [h.todo, h.closed]
    exact hs.last
  refusals := fun r hr => hs.refusals r (h.holds r hr)
  agreed := by
    rw [h.closed]
    exact fun e he hne r hr => hs.agreed e he hne r (h.holds r hr)

theorem ops_sendClosed (cb : Callback) (isServer : Bool) (error : ConnectionError) :
    .sendClosed error ∉ (cb.ops isServer).tail ∧
      (.sendClosed error ∈ cb.ops isServer → ∃ info, cb = .onConnClosed info) := by
  cases cb with
  | onConnClosed info => exact ⟨by simp [Callback.ops], fun _ => ⟨info, rfl⟩⟩
  | onStreamCreated streamId =>
    have hnone : .sendClosed error ∉ (Callback.onStreamCreated streamId).ops isServer := by
      cases hp : peerInitiated isServer streamId <;> simp [Callback.ops, hp]
    exact ⟨fun h => hnone (List.mem_of_mem_tail h), fun h => absurd h hnone⟩
  | onConnEstablished | onStreamReadable streamId | onStreamWritable streamId
    | onStreamClosed streamId => simp [Callback.ops]

theorem sound_callback {s s' : Operations κ} {cb : Callback} (hs : s.Sound)
    (honce : s.ClosesOnce (.bridge (.callback cb)))
    (hb : s.io.bridge.step (.callback cb) = some s'.io.bridge)
    (hholds : ∀ r, s'.Holds r → s.Holds r) : s'.Sound := by
  obtain ⟨_, hbridge⟩ := Bridge.step_callback hb
  have hclosed : s'.closeReason = s.closeReason := by
    unfold closeReason
    rw [hbridge]
  constructor
  · intro error
    rw [hbridge]
    exact (ops_sendClosed cb _ error).1
  · intro e he error hmem
    rw [hbridge] at hmem
    obtain ⟨info, rfl⟩ := (ops_sendClosed cb _ error).2 hmem
    have hnone : s.closeReason = none := honce
    rw [hclosed, hnone] at he
    cases he
  · exact fun r hr => hs.refusals r (hholds r hr)
  · intro e he hne r hr
    exact hs.agreed e (hclosed ▸ he) hne r (hholds r hr)

theorem exec_closeReason {s s' : Operations κ} (hb : s.io.bridge.step .exec = some s'.io.bridge) :
    (∃ error todo, s.io.bridge.todo = .sendClosed error :: todo ∧
      s'.closeReason = some error) ∨
      s'.closeReason = s.closeReason := by
  obtain ⟨op, todo, htodo, hbridge⟩ := Bridge.step_exec hb
  unfold closeReason
  rw [hbridge]
  by_cases hop : ∃ error, op = .sendClosed error
  · obtain ⟨error, rfl⟩ := hop
    exact Or.inl ⟨error, todo, htodo, rfl⟩
  · exact Or.inr (SharedOp.exec_watch fun error heq => hop ⟨error, heq⟩)

theorem sound_exec {s s' : Operations κ} (hs : s.Sound) (hasked : s.Asked (.bridge .exec))
    (hb : s.io.bridge.step .exec = some s'.io.bridge)
    (hholds : ∀ r, s'.Holds r → s.Holds r) : s'.Sound := by
  have hgone : ∀ error, .sendClosed error ∉ s'.io.bridge.todo := by
    intro error hmem
    obtain ⟨op, todo, htodo, hbridge⟩ := Bridge.step_exec hb
    rw [hbridge] at hmem
    rcases List.mem_append.mp hmem with hmore | hrest
    · obtain ⟨g, _, heq, _⟩ := SharedOp.mem_exec hmore
      cases heq
    · have honce := hs.once error
      rw [htodo] at honce
      exact honce hrest
  constructor
  · exact fun error hmem => hgone error (List.mem_of_mem_tail hmem)
  · exact fun _ _ => hgone
  · exact fun r hr => hs.refusals r (hholds r hr)
  · intro e he hne r hr
    rcases exec_closeReason hb with ⟨error, todo, htodo, hrecorded⟩ | hsame
    · obtain rfl : error = e := Option.some.inj (hrecorded.symm.trans he)
      exact hasked error todo htodo hne r (hholds r hr)
    · exact hs.agreed e (hsame ▸ he) hne r (hholds r hr)

theorem sound_step {T : Tquic κ} {s s' : Operations κ} {e : OperationsEvent κ} (hs : s.Sound)
    (hguard : s.ClosesOnce e ∧ s.Asked e) (hstep : s.step T e = some s') : s'.Sound := by
  obtain ⟨honce, hasked⟩ := hguard
  cases turn_step hstep with
  | calm h => exact hs.calm h
  | answered htodo hclosed hnew =>
    constructor
    · rw [htodo]
      exact hs.once
    · rw [htodo, hclosed]
      exact hs.last
    · intro r hr
      rcases hnew r hr with hold | ⟨_, hlocal⟩
      · exact hs.refusals r hold
      · exact hlocal
    · intro e he hne r hr
      rw [hclosed] at he
      rcases hnew r hr with hold | ⟨hnext, _⟩
      · exact hs.agreed e he hne r hold
      · exact absurd hnext (hasked e he hne)
  | bridge hb hholds =>
    rename_i e
    cases e with
    | engine conn =>
      obtain ⟨_, _, hbridge⟩ := Bridge.step_engine hb
      refine hs.calm ⟨by rw [hbridge], ?_, hholds⟩
      unfold closeReason
      rw [hbridge]
    | callback cb => exact sound_callback hs honce hb hholds
    | exec => exact sound_exec hs hasked hb hholds

theorem closeReason_step {T : Tquic κ} {s s' : Operations κ} {ev : OperationsEvent κ}
    (hs : s.Sound) (hstep : s.step T ev = some s') {e : ConnectionError}
    (he : s.closeReason = some e) : s'.closeReason = some e := by
  cases turn_step hstep with
  | calm h => rw [h.closed, he]
  | answered _ hclosed _ => rw [hclosed, he]
  | bridge hb hholds =>
    rename_i ev
    cases ev with
    | engine conn =>
      obtain ⟨_, _, hbridge⟩ := Bridge.step_engine hb
      unfold closeReason at he ⊢
      rw [hbridge, he]
    | callback cb =>
      obtain ⟨_, hbridge⟩ := Bridge.step_callback hb
      unfold closeReason at he ⊢
      rw [hbridge, he]
    | exec =>
      rcases exec_closeReason hb with ⟨error, todo, htodo, _⟩ | hsame
      · exact absurd (by simp [htodo]) (hs.last e he error)
      · rw [hsame, he]

theorem sound_init (connId : Nat) (conn : κ) (remoteAddr : SocketAddr) (isServer : Bool) :
    (init connId conn remoteAddr isServer).Sound where
  once := fun _ h => nomatch h
  last := fun _ h => nomatch h
  refusals := by
    rintro r (⟨h, f, hf, _⟩ | ⟨id, f, hf, _⟩) <;> cases hf
  agreed := fun _ h => nomatch h

/-- Once the error of a close is recorded, every operation that returns a connection
loss returns this error, if no awaited command is answered after the close and no
refusal was on its way when it was recorded. -/
theorem operations_agree (T : Tquic κ) (connId : Nat) (conn : κ) (remoteAddr : SocketAddr)
    (isServer : Bool) (s t : Operations κ) (e : ConnectionError)
    (hs : Reach (step T) (fun s ev => s.ClosesOnce ev ∧ s.Asked ev)
      (init connId conn remoteAddr isServer) s) (he : s.closeReason = some e)
    (ht : Reach (step T) (fun s ev => s.ClosesOnce ev ∧ s.Asked ev) s t) :
    t.closeReason = some e ∧ ∀ op error, t.reports op = some error → error = e := by
  have hsound : s.Sound :=
    hs.invariant (fun _ _ _ hI hg hstep => sound_step hI hg hstep) (sound_init ..)
  obtain ⟨hlater, hreason⟩ := ht.invariant (I := fun t => t.Sound ∧ t.closeReason = some e)
    (fun _ _ _ hI hg hstep => ⟨sound_step hI.1 hg hstep, closeReason_step hI.1 hstep hI.2⟩)
    ⟨hsound, he⟩
  exact ⟨hreason, fun op error h => hlater.reports hreason h⟩

/-- `read` waits for data when the idle timeout is recorded, and reports it. -/
def readWaitsRun : List (OperationsEvent Script) :=
  [.call (.recv 0) (.read [0]), .poll (.recv 0), .poll (.recv 0), .process, .poll (.recv 0),
    .bridge (.callback (.onConnClosed ⟨none, none, true, false, false⟩))]

theorem operations_agree_waiting :
    ∃ s t : Operations Script, s.closeReason = some .timedOut ∧
      t.closeReason = some .timedOut ∧ t.reports (.io (.recv 0)) = some .timedOut ∧
      t.reports (.closed 0) = some .timedOut ∧
      ∀ op error, t.reports op = some error → error = .timedOut := by
  obtain ⟨r, s, t, hrun, halong, hcheck, hothers, hopens, hexec, he, hwaits, hread, hwait⟩ :
      ∃ r s t : Operations Script,
      run (step Tquic.scripted) (init 0 {} .unspecified false) readWaitsRun = some r ∧
      Along (step Tquic.scripted) (fun s ev => s.ClosesOnce ev ∧ s.Asked ev)
        (init 0 {} .unspecified false) readWaitsRun ∧
      r.io.futures (.recv 0) = some ⟨0, [0], .check⟩ ∧
      (∀ h, h ≠ .recv 0 → r.io.futures h = none) ∧ (∀ id, r.streams.opens id = none) ∧
      r.step Tquic.scripted (.bridge .exec) = some s ∧ s.closeReason = some .timedOut ∧
      run (step Tquic.scripted) s [.closed 0, .pollClosed 0] = some t ∧
      t.reports (.io (.recv 0)) = some .timedOut ∧ t.reports (.closed 0) = some .timedOut := by
    refine ⟨_, _, _, rfl, ⟨⟨trivial, trivial⟩, ⟨trivial, trivial⟩, ⟨trivial, trivial⟩, ⟨?_, ?_⟩,
      ⟨trivial, trivial⟩, ⟨rfl, trivial⟩, trivial⟩, rfl, ?_, fun _ => rfl, rfl, rfl, rfl, rfl, rfl⟩
    · intro h
      cases h
    · intro e he
      cases he
    · intro h hne
      match h with
      | .recv 0 => exact absurd rfl hne
      | .recv (_ + 1) => rfl
      | .send _ => rfl
  have hr := reach_of_along hrun halong
  have ht : Reach (step Tquic.scripted) (fun s ev => s.ClosesOnce ev ∧ s.Asked ev) s t := by
    refine reach_of_run ?_ hwaits
    intro e he _
    simp only [List.mem_cons, List.not_mem_nil, or_false] at he
    rcases he with rfl | rfl
    · exact ⟨trivial, trivial⟩
    · exact ⟨trivial, trivial⟩
  -- nobody has a reply when the error is recorded
  have hasked : r.Asked (.bridge .exec) := by
    rintro _ _ _ _ reply (⟨h, f, hf, hpoint⟩ | ⟨id, f, hf, _⟩)
    · by_cases hh : h = .recv 0
      · subst hh
        rw [hcheck] at hf
        cases hf
        cases hpoint
      · rw [hothers h hh] at hf
        cases hf
    · rw [hopens id] at hf
      cases hf
  have hs := hr.event (.bridge .exec) ⟨trivial, hasked⟩ hexec
  obtain ⟨hreason, hall⟩ :=
    operations_agree Tquic.scripted 0 {} .unspecified false s t .timedOut hs he ht
  exact ⟨s, t, he, hreason, hread, hwait, hall⟩

/-- `read` is called before the close. -/
def readSentRun : List (OperationsEvent Script) :=
  [.call (.recv 0) (.read [0]), .poll (.recv 0), .poll (.recv 0),
    .bridge (.callback (.onConnClosed ⟨none, none, true, false, false⟩)), .bridge .exec]

/-- Its command is processed after the close. -/
def readProcessedRun : List (OperationsEvent Script) :=
  [.bridge .exec, .bridge (.engine none), .process]

theorem read_reports_locallyClosed :
    ¬ ∀ (s t : Operations Script) (e : ConnectionError),
      Reach (step Tquic.scripted) ClosesOnce (init 0 {} .unspecified false) s →
      s.closeReason = some e → Reach (step Tquic.scripted) ClosesOnce s t →
      t.closeReason = some e ∧ ∀ op error, t.reports op = some error → error = e := by
  intro hall
  obtain ⟨s, t, hsent, honce, he, hprocessed, hover, hreport⟩ : ∃ s t : Operations Script,
      run (step Tquic.scripted) (init 0 {} .unspecified false) readSentRun = some s ∧
      Along (step Tquic.scripted) ClosesOnce (init 0 {} .unspecified false) readSentRun ∧
      s.closeReason = some .timedOut ∧ run (step Tquic.scripted) s readProcessedRun = some t ∧
      Along (step Tquic.scripted) ClosesOnce s readProcessedRun ∧
      t.reports (.io (.recv 0)) = some .locallyClosed :=
    ⟨_, _, rfl, ⟨trivial, trivial, trivial, rfl, trivial, trivial⟩, rfl, rfl,
      ⟨trivial, trivial, fun _ => rfl, trivial⟩, rfl⟩
  have hagree := hall s t .timedOut (reach_of_along hsent honce) he
    (reach_of_along hprocessed hover)
  have heq := hagree.2 _ _ hreport
  cases heq

end Operations

end TokioTquic
