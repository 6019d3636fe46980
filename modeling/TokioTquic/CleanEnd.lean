import TokioTquic.StreamEnds

/-!
# What a reader is told about the end of a stream

`all_data_read` is set by the peer's FIN and by the own `stop`, and a call that
finds it set reports the end of the stream.
-/

namespace TokioTquic
open Async
set_option autoImplicit false

/-- The call reports that the peer's data ended here. -/
def Outcome.CleanEnd : Outcome → Prop
  | .read (.ok none) | .readExact (.error (.finishedEarly _)) | .readToEnd (.ok _) => True
  | _ => False

/-- The engine handed out the peer's FIN, to a call or to nobody. -/
def Entry.FinDelivered : Entry ReadAnswer → Prop
  | .answered a | .unread a => a.fin = true
  | _ => False

def EndsAtFin (l : List (Entry ReadAnswer)) : Prop :=
  ∀ pre o post, l = pre ++ .returned o :: post → o.CleanEnd → ∃ e ∈ pre, e.FinDelivered

theorem EndsAtFin.snoc {l : List (Entry ReadAnswer)} {e : Entry ReadAnswer} (hl : EndsAtFin l)
    (he : ∀ o, e = .returned o → o.CleanEnd → ∃ e' ∈ l, e'.FinDelivered) :
    EndsAtFin (l ++ [e]) := by
  intro pre o post heq hclean
  rcases List.eq_nil_or_concat post with rfl | ⟨post, e', rfl⟩
  · obtain ⟨rfl, hlast⟩ := List.append_inj' heq rfl
    exact he o (List.cons.inj hlast).1 hclean
  · rw [List.concat_eq_append, ← List.cons_append, ← List.append_assoc] at heq
    exact hl pre o post (List.append_inj' heq rfl).1 hclean

theorem Caller.onCompletion_clean {caller : Caller} {c : Completion} {o : Outcome}
    (h : caller.onCompletion c = some o) (hclean : o.CleanEnd) :
    ∃ buf, c = .read (.ok none) buf := by
  cases Caller.onCompletion_yields h with
  | readEnd buf | exactEnd buf | toEndEnd buf => exact ⟨buf, rfl⟩
  | _ => exact hclean.elim

theorem Caller.onCompletion_atEnd {caller : Caller} {buf : Bytes} {o : Outcome}
    (h : caller.onCompletion (.read (.ok none) buf) = some o) : o.CleanEnd := by
  cases caller <;> cases h <;> trivial

theorem RecvStream.onAnswer_none {self : RecvStream} {buf buf' : Bytes} {a : ReadAnswer}
    (h : (StreamHandle.onAnswer self buf a).2 = .ret (.read (.ok none) buf')) :
    a.fin = true := by
  simp only [StreamHandle.onAnswer] at h
  rcases a with (e | ⟨data, fin⟩) | _ | _
  · cases e <;> cases h
  · cases fin with
    | true => rfl
    | false =>
      simp only [ReadAnswer.reply, readReply, onReply] at h
      split at h <;> cases h
  · cases h
  · cases h

theorem EndsAtFin.reported {l m : List (Entry ReadAnswer)} {c : Completion} (hl : EndsAtFin l)
    (hm : StreamLife.Reported c m)
    (hfin : ∀ buf, c = .read (.ok none) buf → ∃ e ∈ l, e.FinDelivered) : EndsAtFin (l ++ m) := by
  obtain rfl | ⟨caller, o, ho, rfl⟩ := hm
  · rwa [List.append_nil]
  · refine hl.snoc fun o' heq hclean => ?_
    cases heq
    obtain ⟨buf, hc⟩ := Caller.onCompletion_clean ho hclean
    exact hfin buf hc

namespace RecvLife
variable {s t : RecvLife}

def Stopped (s : RecvLife) : Prop := ∃ e ∈ s.history, e.Ends (StreamHandle.half s.self)

/-- No `read` starts on a stopped handle, unless the engine has delivered FIN. -/
def ReadsUnstopped (s : RecvLife) : LifeEvent RecvOp ReadAnswer → Prop
  | .poll => Stopped s → ∃ e ∈ s.history, e.FinDelivered
  | _ => True

theorem ended_cases {h : Half} (hs : s.Disciplined h) (hended : s.self.allDataRead = true) :
    Stopped s ∨ ∃ e ∈ s.history, e.FinDelivered := by
  obtain ⟨pre, e, post, heq, hlast, _⟩ := hs.flag.settled hended
  have he : e ∈ s.history := by
    rw [heq]
    exact List.mem_append_right _ List.mem_cons_self
  obtain hends | hfin := (Entry.closes_recv h e).mp hlast
  · exact Or.inl ⟨e, he, by rw [hs.half]; exact hends⟩
  · refine Or.inr ⟨e, he, ?_⟩
    cases e with
    | answered a => exact hfin
    | _ => exact hfin.elim

theorem step_endsAtFin {h : Half} {e : LifeEvent RecvOp ReadAnswer} (hs : EndsAtFin s.history)
    (hdisc : s.Disciplined h) (hguard : ReadsUnstopped s e) (hstep : step s e = some t) :
    EndsAtFin t.history := by
  obtain ⟨l, hl, hadds⟩ := StreamLife.step_history use_history hstep
  rw [hl]
  cases hadds with
  | nothing => rwa [List.append_nil]
  | sent _ cmd => exact hs.snoc fun o heq => by cases heq
  | @idle op c o ho =>
    refine hs.snoc fun o' heq hclean => ?_
    cases heq
    unfold Call.idle at ho
    split at ho <;> cases ho <;> exact hclean.elim
  | atEnd hended hreported =>
    refine hs.reported hreported fun _ _ => ?_
    exact (ended_cases hdisc hended).elim hguard id
  | @lost h' _ _ _ hreported => exact hs.reported hreported fun buf heq => by cases h' <;> cases heq
  | waits a => exact hs.snoc fun o heq => by cases heq
  | @returns buf a c l hanswer hreported =>
    have hlog : EndsAtFin (s.history ++ [.answered a]) := hs.snoc fun o heq => by cases heq
    rw [← List.singleton_append, ← List.append_assoc]
    refine hlog.reported hreported ?_
    rintro buf rfl
    exact ⟨_, List.mem_append_right _ List.mem_cons_self, RecvStream.onAnswer_none hanswer⟩
  | unread a => exact hs.snoc fun o heq => by cases heq

/-- A `read` that starts on a stopped handle reports an end that was not delivered. -/
theorem poll_stopped {h : Half} (hdisc : s.Disciplined h) (hstopped : Stopped s)
    (hfin : ∀ e ∈ s.history, ¬ e.FinDelivered) (hstep : step s .poll = some t) :
    ¬ EndsAtFin t.history := by
  have hended : s.self.allDataRead = true := by
    obtain ⟨e, he, hends⟩ := hstopped
    by_contra hopen
    refine hdisc.flag.running (Bool.eq_false_iff.mpr hopen) e he ?_
    exact (Entry.closes_recv h e).mpr (Or.inl (hdisc.half ▸ hends))
  simp only [step, StreamLife.step] at hstep
  split at hstep
  · rw [show StreamHandle.ended s.self = true from hended, if_pos rfl] at hstep
    unfold StreamLife.complete at hstep
    split at hstep <;> cases hstep <;> rename_i ho
    · exact (Caller.onCompletion_atEnd ho).elim
    · intro hends
      obtain ⟨e, he, hfin'⟩ := hends s.history _ [] rfl (Caller.onCompletion_atEnd ho)
      exact hfin e he hfin'
  · cases hstep

end RecvLife

/-- In a run in which no `read` starts on a handle stopped before FIN, a clean end is
reported only after FIN; a `read` that starts on one reports a clean end without it. -/
theorem clean_end_is_fin (connId streamId : Nat) :
    (∀ s, Reach RecvLife.step RecvLife.ReadsUnstopped (.init ⟨connId, streamId, false⟩) s →
      EndsAtFin s.history) ∧
    ∀ s e t, Reach RecvLife.step Any (.init ⟨connId, streamId, false⟩) s →
      ¬ RecvLife.ReadsUnstopped s e → RecvLife.step s e = some t → ¬ EndsAtFin t.history := by
  constructor
  · intro s hreach
    have hboth : s.Disciplined (.recv streamId) ∧ EndsAtFin s.history := by
      apply hreach.invariant
      · rintro s e t ⟨hdisc, hs⟩ hguard hstep
        exact ⟨StreamLife.step_disciplined RecvLife.use_disciplined hdisc hstep,
          RecvLife.step_endsAtFin hs hdisc hguard hstep⟩
      · refine ⟨RecvLife.reach_disciplined (.refl _), ?_⟩
        intro pre o post heq
        cases pre <;> cases heq
    exact hboth.2
  · intro s e t hreach hguard hstep
    cases e with
    | poll =>
      obtain ⟨hstopped, hfin⟩ := Classical.not_imp.mp hguard
      apply RecvLife.poll_stopped (RecvLife.reach_disciplined hreach) hstopped _ hstep
      exact fun e he hdelivered => hfin ⟨e, he, hdelivered⟩
    | _ => exact absurd trivial hguard

/-- The last byte comes with FIN; the next `read` reports the end. -/
def finishedRead : List (LifeEvent RecvOp ReadAnswer) :=
  [.use (.call (.read [0])), .poll, .answer (.engine (.ok ([7], true))),
    .use (.call (.read [0])), .poll]

theorem clean_end_is_fin_read :
    ∃ s, run RecvLife.step (.init ⟨1, 4, false⟩) finishedRead = some s ∧
      (∃ o, .returned o ∈ s.history ∧ o.CleanEnd) ∧ EndsAtFin s.history := by
  obtain ⟨s, hrun, hend, hguard⟩ :
      ∃ s, run RecvLife.step (.init ⟨1, 4, false⟩) finishedRead = some s ∧
        s.history.getLast? = some (.returned (.read (.ok none))) ∧
        Along RecvLife.step RecvLife.ReadsUnstopped (.init ⟨1, 4, false⟩) finishedRead := by
    refine ⟨_, rfl, rfl, trivial, ?_, trivial, trivial, ?_, trivial⟩
    · rintro ⟨e, he, _⟩
      cases he
    · exact fun _ => ⟨.answered (.engine (.ok ([7], true))),
        List.mem_cons_of_mem _ List.mem_cons_self, rfl⟩
  have ho : Entry.returned (.read (.ok none)) ∈ s.history := List.mem_of_getLast? hend
  exact ⟨s, hrun, ⟨_, ho, trivial⟩, (clean_end_is_fin 1 4).1 s (reach_of_along hrun hguard)⟩

/-- After `stop` the next `read` returns `Ok(None)`, although no FIN came. -/
theorem stopped_read_ends_clean :
    ¬ ∀ s, Reach RecvLife.step Any (.init ⟨1, 4, false⟩) s → EndsAtFin s.history := by
  intro hall
  have hrun : ∃ s, run RecvLife.step (.init ⟨1, 4, false⟩)
      [.use (.stop (.fromU32 0)), .use (.call (.read [0])), .poll] = some s ∧
        s.history = [.sent (.streamShutdownRead 4 0), .returned (.read (.ok none))] :=
    ⟨_, rfl, rfl⟩
  obtain ⟨s, hs, hhistory⟩ := hrun
  obtain ⟨e, he, hfin⟩ := hall s (reach_any_of_run hs) [_] _ [] hhistory trivial
  rw [List.mem_singleton.mp he] at hfin
  exact hfin

end TokioTquic
