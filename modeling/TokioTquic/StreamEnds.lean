import TokioTquic.Async.Settled
import TokioTquic.StreamHalves
import TokioTquic.StreamLife

/-!
# The last command of a stream handle

`finished` and `all_data_read` tell whether the last word about the half has
been spoken: FIN or a reset for a `SendStream`, the peer's FIN or a stop for a
`RecvStream`. Every operation looks at its flag before it sends, and none ends
the half while a `read` or `write` is in progress.
-/

namespace TokioTquic
open Async
set_option autoImplicit false

variable {β α ω : Type} [StreamHandle β α]

/-- The half that a command of a stream handle is about. -/
def ConnCommand.target {ρ : Type} : ConnCommand ρ → Option Half
  | .streamRead streamId .. | .streamShutdownRead streamId _ => some (.recv streamId)
  | .streamWrite streamId .. | .streamShutdownWrite streamId _ | .streamSetPriority streamId _ =>
    some (.send streamId)
  | _ => none

namespace Entry

def Sent : Entry α → Prop
  | .sent _ => True
  | _ => False

def Ends (h : Half) : Entry α → Prop
  | .sent cmd => cmd.Ends h
  | _ => False

def FinReceived : Entry ReadAnswer → Prop
  | .answered a => a.fin = true
  | _ => False

/-- The last word about a half: the command that ends it, or the peer's FIN. -/
def Closes (β : Type) {α : Type} [StreamHandle β α] (h : Half) : Entry α → Prop
  | .sent cmd => cmd.Ends h
  | .answered a => StreamHandle.fin β a = true
  | _ => False

theorem closes_send (h : Half) (e : Entry WriteAnswer) : e.Closes SendStream h ↔ e.Ends h := by
  cases e with
  | answered a => exact iff_of_false Bool.false_ne_true id
  | _ => exact Iff.rfl

theorem closes_recv (h : Half) (e : Entry ReadAnswer) :
    e.Closes RecvStream h ↔ e.Ends h ∨ e.FinReceived := by
  cases e with
  | sent cmd => exact (or_iff_left id).symm
  | answered a => exact (or_iff_right id).symm
  | _ => exact (or_iff_left id).symm

theorem finReceived_not_ends {h : Half} {e : Entry ReadAnswer} (he : e.FinReceived) :
    ¬ e.Ends h := by
  cases e with
  | sent cmd => exact he.elim
  | _ => exact id

end Entry

namespace StreamLife
open StreamHandle
variable {s t : StreamLife β α} {h : Half}

def Rests (s : StreamLife β α) : Prop := ∀ f ∈ s.future, f.point = .begin

/-- The flag tells whether the last word is spoken; it is when the handle is gone, and
it is not while a request is out. All commands are about the half of the handle. -/
structure Disciplined (h : Half) (s : StreamLife β α) : Prop where
  half : half s.self = h
  own : ∀ cmd, .sent cmd ∈ s.history → cmd.target = some h
  flag : Flagged (Entry.Closes β h) Entry.Sent (ended s.self) s.history
  busy : s.Rests ∨ ended s.self = false
  dropped : s.dropped = true → ended s.self = true

theorem Disciplined.log (hs : s.Disciplined h) {e : Entry α} (he : ¬ e.Closes β h)
    (hsent : ¬ e.Sent) : (s.log e).Disciplined h where
  half := hs.half
  own := fun cmd hcmd => by
    rcases List.mem_append.mp hcmd with hcmd | hcmd
    · exact hs.own cmd hcmd
    · rw [← List.mem_singleton.mp hcmd] at hsent
      exact absurd trivial hsent
  flag := hs.flag.append fun e' he' => by
    rw [List.mem_singleton.mp he']
    exact ⟨he, fun h => absurd h hsent⟩
  busy := hs.busy
  dropped := hs.dropped

theorem Disciplined.goto (hs : s.Disciplined h) {future : Option LifeFuture}
    (hfuture : (s.goto future).Rests ∨ ended s.self = false) : (s.goto future).Disciplined h where
  half := hs.half
  own := hs.own
  flag := hs.flag
  busy := hfuture
  dropped := hs.dropped

theorem Disciplined.send_own (hs : s.Disciplined h) {cmd : ConnCommand Nat}
    (hcmd : cmd.target = some h) : ∀ c, .sent c ∈ (s.send cmd).history → c.target = some h := by
  intro c hc
  rcases List.mem_append.mp hc with hc | hc
  · exact hs.own c hc
  · cases List.mem_singleton.mp hc
    exact hcmd

theorem Disciplined.send (hs : s.Disciplined h) {cmd : ConnCommand Nat}
    (htarget : cmd.target = some h) (hcmd : ¬ cmd.Ends h) (hopen : ended s.self = false) :
    (s.send cmd).Disciplined h where
  half := hs.half
  own := hs.send_own htarget
  flag := hs.flag.append fun e he => by
    rw [List.mem_singleton.mp he]
    exact ⟨hcmd, fun _ => hopen⟩
  busy := hs.busy
  dropped := hs.dropped

theorem request_not_ends (h h' : Half) (buf : Bytes) (n : Nat) :
    ¬ ConnCommand.Ends h (h'.request buf n) := by
  cases h' with
  | recv streamId => exact id
  | send streamId => exact fun hends => by cases hends.1

theorem request_target (h : Half) (buf : Bytes) (n : Nat) : (h.request buf n).target = some h := by
  cases h <;> rfl

theorem Disciplined.request (hs : s.Disciplined h) (f : LifeFuture)
    (hopen : ended s.self = false) : (s.request f).Disciplined h := by
  have hsend := hs.send (by rw [request_target, hs.half])
    (request_not_ends _ (StreamHandle.half s.self) f.buf s.next) hopen
  exact hsend.goto (Or.inr hopen)

theorem Disciplined.close (hs : s.Disciplined h) (cmd : ConnCommand Nat)
    (htarget : cmd.target = some h) (hcmd : cmd.Ends h)
    (hopen : ended s.self = false) (hfuture : s.future = none) {self : β}
    (hself : StreamHandle.half self = h) (hended : ended self = true) :
    ((s.send cmd).become self).Disciplined h where
  half := hself
  own := hs.send_own htarget
  flag := by
    change Flagged _ _ (ended self) _
    rw [hended]
    exact hs.flag.settle hopen hcmd fun _ hb => absurd hb List.not_mem_nil
  busy := Or.inl fun f hf => by
    change f ∈ s.future at hf
    rw [hfuture] at hf
    cases hf
  dropped := fun _ => hended

theorem Disciplined.answered (hs : s.Disciplined h) (hopen : ended s.self = false) {self : β} {a : α}
    (hself : StreamHandle.half self = h) (hended : ended self = (ended s.self || fin β a))
    (future : Option LifeFuture) (hfuture : fin β a = true → (s.goto future).Rests) :
    (((s.log (.answered a)).become self).goto future).Disciplined h where
  half := hself
  own := fun cmd hcmd => by
    rcases List.mem_append.mp hcmd with hcmd | hcmd
    · exact hs.own cmd hcmd
    · cases List.mem_singleton.mp hcmd
  flag := by
    change Flagged _ _ (ended self) _
    rw [hended, hopen, Bool.false_or]
    cases hfin : fin β a with
    | true => exact hs.flag.settle hopen hfin fun _ hb => absurd hb List.not_mem_nil
    | false =>
      rw [← hopen]
      refine hs.flag.append fun e he => ?_
      rw [List.mem_singleton.mp he]
      refine ⟨fun h => ?_, fun h => h.elim⟩
      rw [show fin β a = true from h] at hfin
      cases hfin
  busy := by
    cases hfin : fin β a with
    | true => exact Or.inl (hfuture hfin)
    | false => exact Or.inr (by simp [hended, hopen, hfin, become, StreamLife.goto])
  dropped := fun hd => by
    have hdown := hs.dropped hd
    rw [hopen] at hdown
    cases hdown

theorem Disciplined.complete (hs : s.Disciplined h) {f : LifeFuture} {c : Completion}
    (hstep : s.complete f c = some t) : t.Disciplined h := by
  unfold StreamLife.complete at hstep
  split at hstep <;> cases hstep
  · apply hs.goto (Or.inl fun f hf => ?_)
    cases hf
    rfl
  · apply (hs.goto (Or.inl fun f hf => ?_)).log id id
    cases hf

theorem Disciplined.call (hs : s.Disciplined h) {c : Call} (hstep : s.call c = some t) :
    t.Disciplined h := by
  unfold StreamLife.call at hstep
  split at hstep
  · split at hstep
    · cases hstep
      apply hs.goto (Or.inl fun f hf => ?_)
      cases hf
      rfl
    · obtain ⟨o, _, rfl⟩ := Option.map_eq_some_iff.mp hstep
      exact hs.log id id
  · cases hstep

theorem Disciplined.answer (hs : s.Disciplined h) (hopen : ended s.self = false) {f : LifeFuture}
    {a : α} (hstep : s.answer f a = some t) : t.Disciplined h := by
  have hhalf := (onAnswer_half s.self f.buf a).trans hs.half
  have hended := onAnswer_ended s.self f.buf a
  have hwait := onAnswer_wait s.self f.buf a
  unfold StreamLife.answer at hstep
  split at hstep <;> rename_i self _ heq <;> rw [heq] at hhalf hended hwait
  · cases hstep
    apply hs.answered hopen hhalf hended
    intro hfin
    rw [hwait rfl] at hfin
    cases hfin
  · have hnext : (((s.log (.answered a)).become self).goto none).Disciplined h := by
      apply hs.answered hopen hhalf hended
      intro _ f hf
      cases hf
    -- `complete` looks at the history and the handle, not at the future it ends
    exact hnext.complete hstep

theorem step_disciplined {use : StreamLife β α → ω → Option (StreamLife β α)}
    (huse : ∀ {s t : StreamLife β α} {op : ω}, s.Disciplined h → s.future = none →
      use s op = some t → t.Disciplined h)
    {e : LifeEvent ω α} (hs : s.Disciplined h) (hstep : step use s e = some t) :
    t.Disciplined h := by
  have hbusy : ∀ f ∈ s.future, f.point ≠ .begin → ended s.self = false := fun f hf hpoint =>
    hs.busy.resolve_left fun hrests => hpoint (hrests f hf)
  cases e with
  | use op =>
    simp only [step] at hstep
    split at hstep
    · rename_i hidle
      simp only [Bool.and_eq_true, Option.isNone_iff_eq_none] at hidle
      exact huse hs hidle.1 hstep
    · cases hstep
  | poll =>
    simp only [step] at hstep
    split at hstep
    · split at hstep
      · exact hs.complete hstep
      · rename_i hopen
        cases hstep
        exact hs.request _ (Bool.eq_false_iff.mpr hopen)
    · cases hstep
  | answer a =>
    simp only [step] at hstep
    split at hstep
    · rename_i hfuture
      exact hs.answer (hbusy _ hfuture fun hpoint => by cases hpoint) hstep
    · cases hstep
  | waited error =>
    simp only [step] at hstep
    split at hstep
    · rename_i hfuture
      cases error with
      | some e => exact hs.complete hstep
      | none =>
        cases hstep
        exact hs.request _ (hbusy _ hfuture fun hpoint => by cases hpoint)
    · cases hstep
  | cancel =>
    simp only [step] at hstep
    split at hstep <;> cases hstep
    exact hs.goto (Or.inl fun f hf => by cases hf)
  | unread a =>
    cases hstep
    exact hs.log id id

end StreamLife

/-! ## The two handles -/

namespace SendLife
variable {s t : SendLife} {h : Half}

theorem finish_disciplined (hs : s.Disciplined h) (hfuture : s.future = none) :
    (finish s).Disciplined h ∧ (finish s).self.finished = true := by
  unfold finish SendStream.finish
  cases hopen : s.self.finished with
  | true => exact ⟨hs, hopen⟩
  | false =>
    refine ⟨?_, rfl⟩
    exact hs.close (.streamWrite s.self.streamId [] true s.next) (congrArg some hs.half)
      ⟨rfl, hs.half.symm⟩ hopen hfuture hs.half rfl

theorem use_disciplined {op : SendOp} (hs : s.Disciplined h) (hfuture : s.future = none)
    (hstep : use s op = some t) : t.Disciplined h := by
  cases op with
  | call c => exact hs.call hstep
  | finish | pollShutdown =>
    cases hstep
    exact (finish_disciplined hs hfuture).1
  | reset errorCode =>
    simp only [use, SendStream.reset] at hstep
    cases hopen : s.self.finished <;> rw [hopen] at hstep <;> cases hstep
    · exact hs.close (.streamShutdownWrite s.self.streamId _) (congrArg some hs.half)
        hs.half.symm hopen hfuture hs.half rfl
    · exact hs
  | setPriority priority =>
    simp only [use, SendStream.setPriority] at hstep
    cases hopen : s.self.finished <;> rw [hopen] at hstep <;> cases hstep
    · exact hs.send (congrArg some hs.half) id hopen
    · exact hs
  | pollWrite buf =>
    simp only [use, SendStream.pollWrite] at hstep
    cases hopen : s.self.finished <;> rw [hopen] at hstep <;> cases hstep
    · exact hs.send (congrArg some hs.half) (fun hends => by cases hends.1) hopen
    · exact hs
  | drop =>
    cases hstep
    obtain ⟨hfinish, hfinished⟩ := finish_disciplined hs hfuture
    exact ⟨hfinish.half, hfinish.own, hfinish.flag, hfinish.busy, fun _ => hfinished⟩

theorem reach_disciplined {connId streamId : Nat}
    (hreach : Reach step Any (.init ⟨connId, streamId, false⟩) s) :
    s.Disciplined (.send streamId) := by
  apply hreach.invariant fun _ _ _ hs _ hstep => StreamLife.step_disciplined use_disciplined hs hstep
  exact ⟨rfl, (fun _ h => by cases h), .nil, Or.inr rfl, fun hd => by cases hd⟩

end SendLife

namespace RecvLife
variable {s t : RecvLife} {h : Half}

theorem stop_disciplined (hs : s.Disciplined h) (hfuture : s.future = none) (errorCode : VarInt) :
    (stop s errorCode).Disciplined h ∧ (stop s errorCode).self.allDataRead = true := by
  unfold stop RecvStream.stop
  cases hopen : s.self.allDataRead with
  | true => exact ⟨hs, hopen⟩
  | false =>
    refine ⟨?_, rfl⟩
    exact hs.close (.streamShutdownRead s.self.streamId _) (congrArg some hs.half)
      hs.half.symm hopen hfuture hs.half rfl

theorem use_disciplined {op : RecvOp} (hs : s.Disciplined h) (hfuture : s.future = none)
    (hstep : use s op = some t) : t.Disciplined h := by
  cases op with
  | call c => exact hs.call hstep
  | stop errorCode =>
    cases hstep
    exact (stop_disciplined hs hfuture errorCode).1
  | pollRead maxLen =>
    simp only [use, RecvStream.pollRead] at hstep
    cases hopen : s.self.allDataRead <;> rw [hopen] at hstep <;> cases hstep
    · exact hs.send (congrArg some hs.half) id hopen
    · exact hs
  | drop =>
    cases hstep
    obtain ⟨hstop, hended⟩ := stop_disciplined hs hfuture (.fromU32 0)
    exact ⟨hstop.half, hstop.own, hstop.flag, hstop.busy, fun _ => hended⟩

theorem reach_disciplined {connId streamId : Nat}
    (hreach : Reach step Any (.init ⟨connId, streamId, false⟩) s) :
    s.Disciplined (.recv streamId) := by
  apply hreach.invariant fun _ _ _ hs _ hstep => StreamLife.step_disciplined use_disciplined hs hstep
  exact ⟨rfl, (fun _ h => by cases h), .nil, Or.inr rfl, fun hd => by cases hd⟩

end RecvLife

/-! ## Until the drop -/

/-- When a `SendStream` is gone, exactly one FIN or reset was sent, and no command
after it. When a `RecvStream` is gone that received the peer's FIN, nothing was sent
after that and no stop at all; otherwise exactly one stop was sent, and no command
after it. -/
theorem stream_handles_end_once (connId streamId : Nat) :
    (∀ s, Reach SendLife.step Any (.init ⟨connId, streamId, false⟩) s → s.dropped = true →
      Settled (Entry.Ends (.send streamId)) Entry.Sent s.history) ∧
    ∀ s, Reach RecvLife.step Any (.init ⟨connId, streamId, false⟩) s → s.dropped = true →
      ((∃ e ∈ s.history, e.FinReceived) →
        (∀ e ∈ s.history, ¬ e.Ends (.recv streamId)) ∧
          ∀ pre e post, s.history = pre ++ e :: post → e.FinReceived → ∀ e' ∈ post, ¬ e'.Sent) ∧
      ((∀ e ∈ s.history, ¬ e.FinReceived) →
        Settled (Entry.Ends (.recv streamId)) Entry.Sent s.history) := by
  constructor
  · intro s hreach hd
    have hs := SendLife.reach_disciplined hreach
    exact (hs.flag.settled (hs.dropped hd)).congr fun e _ => Entry.closes_send _ e
  · intro s hreach hd
    have hs := RecvLife.reach_disciplined hreach
    have hsettled := hs.flag.settled (hs.dropped hd)
    constructor
    · rintro ⟨e, he, hfin⟩
      have hafter : ∀ pre e post, s.history = pre ++ e :: post → e.FinReceived →
          (∀ e' ∈ pre, ¬ e'.Closes RecvStream (.recv streamId)) ∧
            ∀ e' ∈ post, ¬ e'.Closes RecvStream (.recv streamId) ∧ ¬ e'.Sent := by
        intro pre e post heq hfin
        exact hsettled.at_last heq ((Entry.closes_recv _ e).mpr (Or.inr hfin))
      refine ⟨fun e' he' hends => ?_, fun pre e post heq hfin e' he' =>
        ((hafter pre e post heq hfin).2 e' he').2⟩
      have hcloses := (Entry.closes_recv _ e').mpr (Or.inl hends)
      obtain ⟨pre, post, heq⟩ := List.append_of_mem he
      obtain ⟨hpre, hpost⟩ := hafter pre e post heq hfin
      rw [heq] at he'
      rcases List.mem_append.mp he' with he' | he'
      · exact hpre e' he' hcloses
      · rcases List.mem_cons.mp he' with rfl | he'
        · exact Entry.finReceived_not_ends hfin hends
        · exact (hpost e' he').1 hcloses
    · intro hnone
      apply hsettled.congr
      intro e he
      exact (Entry.closes_recv _ e).trans (or_iff_left (hnone e he))

/-- A write, then `finish`, and a reset that comes too late. -/
def finishedLife : List (LifeEvent SendOp WriteAnswer) :=
  [.use (.call (.write [7])), .poll, .answer (.engine (.ok 1)), .use .finish,
    .use (.reset (.fromU32 5)), .use .drop]

/-- A read that is dropped while it waits for its reply. -/
def stoppedLife : List (LifeEvent RecvOp ReadAnswer) :=
  [.use (.call (.read [0])), .poll, .cancel, .unread (.engine (.ok ([], true))), .use .drop]

/-- A read with which FIN comes. -/
def finLife : List (LifeEvent RecvOp ReadAnswer) :=
  [.use (.call (.read [0])), .poll, .answer (.engine (.ok ([7], true))), .use .drop]

theorem stream_handles_end_once_runs :
    (∃ s, run SendLife.step (.init ⟨1, 0, false⟩) finishedLife = some s ∧
      Settled (Entry.Ends (.send 0)) Entry.Sent s.history) ∧
    (∃ s, run RecvLife.step (.init ⟨1, 0, false⟩) stoppedLife = some s ∧
      Settled (Entry.Ends (.recv 0)) Entry.Sent s.history) ∧
    ∃ s, run RecvLife.step (.init ⟨1, 0, false⟩) finLife = some s ∧
      (∃ e ∈ s.history, e.FinReceived) ∧ ∀ e ∈ s.history, ¬ e.Ends (.recv 0) := by
  have hsend : ∃ s, run SendLife.step (.init ⟨1, 0, false⟩) finishedLife = some s ∧
      s.dropped = true := ⟨_, rfl, rfl⟩
  have hrecv : ∃ s, run RecvLife.step (.init ⟨1, 0, false⟩) stoppedLife = some s ∧
      s.dropped = true ∧ ∀ e ∈ s.history, ¬ e.FinReceived := by
    refine ⟨_, rfl, rfl, ?_⟩
    rintro e (_ | ⟨_, _ | ⟨_, _ | ⟨_, he⟩⟩⟩)
    · exact id
    · exact id
    · exact id
    · cases he
  have hended : ∃ s, run RecvLife.step (.init ⟨1, 0, false⟩) finLife = some s ∧
      s.dropped = true ∧ ∃ e ∈ s.history, e.FinReceived :=
    ⟨_, rfl, rfl, .answered (.engine (.ok ([7], true))),
      List.mem_cons_of_mem _ List.mem_cons_self, rfl⟩
  obtain ⟨s, hs, hd⟩ := hsend
  obtain ⟨r, hr, hr', hfin⟩ := hrecv
  obtain ⟨q, hq, hq', hreceived⟩ := hended
  refine ⟨⟨s, hs, ?_⟩, ⟨r, hr, ?_⟩, q, hq, hreceived, ?_⟩
  · exact (stream_handles_end_once 1 0).1 s (reach_any_of_run hs) hd
  · exact ((stream_handles_end_once 1 0).2 r (reach_any_of_run hr) hr').2 hfin
  · exact (((stream_handles_end_once 1 0).2 q (reach_any_of_run hq) hq').1 hreceived).1

end TokioTquic
