import TokioTquic.CallLedger

/-!
# A message from one end of a stream to the other

A writer and a reader, each with a ledger. The transport hands out what the writer's
engine took, and FIN behind all of it. A reader that is told the end of the stream has
reported everything the writer's calls reported, and the writer cannot add to it.
-/

namespace TokioTquic
open Async
set_option autoImplicit false

universe u
variable {κ : Type u} {α β ω : Type}

theorem Entry.sent_of_command {l : List (Entry α)} {cmd : ConnCommand Nat}
    (h : cmd ∈ l.filterMap Entry.command) : .sent cmd ∈ l := by
  obtain ⟨e, he, hcommand⟩ := List.mem_filterMap.mp h
  cases e with
  | sent cmd' =>
    cases hcommand
    exact he
  | _ => cases hcommand

/-! ## The writer -/

theorem SendLife.last_command {s : SendLife} {h : Half} (hs : s.Disciplined h) {i : Nat}
    {cmd : ConnCommand Nat} (hcmd : s.commands[i]? = some cmd) (hends : cmd.Ends h) :
    s.self.finished = true ∧ s.commands.length = i + 1 := by
  have hflag : StreamHandle.ended s.self = true := by
    rw [← Bool.not_eq_false]
    intro hdown
    exact hs.flag.running hdown _ (Entry.sent_of_command (List.mem_of_getElem? hcmd)) hends
  refine ⟨hflag, ?_⟩
  obtain ⟨pre, e, post, heq, hlast, hpre, hpost⟩ := hs.flag.settled hflag
  have hpost' : post.filterMap Entry.command = [] := by
    rw [List.filterMap_eq_nil_iff]
    intro e' he'
    cases e' with
    | sent cmd' => exact absurd trivial (hpost _ he').2
    | _ => rfl
  obtain ⟨last, rfl⟩ : ∃ last, e = .sent last := by
    cases e with
    | sent last => exact ⟨last, rfl⟩
    | answered a => exact absurd hlast Bool.false_ne_true
    | _ => exact hlast.elim
  have hcommands : s.commands = pre.filterMap Entry.command ++ [last] := by
    rw [StreamLife.commands, heq, List.filterMap_append, List.filterMap_cons, hpost']
    rfl
  rw [hcommands] at hcmd ⊢
  rw [List.length_append, List.length_singleton]
  by_cases hi : i < (pre.filterMap Entry.command).length
  · -- a command before the last one does not end the half
    rw [List.getElem?_append_left hi] at hcmd
    exact absurd hends (hpre _ (Entry.sent_of_command (List.mem_of_getElem? hcmd)))
  · rw [List.getElem?_append_right (by omega)] at hcmd
    have hi' := (List.getElem?_eq_some_iff.mp hcmd).1
    rw [List.length_singleton] at hi'
    omega

namespace Party
variable [CountedHandle.{u} β α] {p q : Party β α κ}

theorem step_commands {T : Tquic κ} {use : StreamLife β α → ω → Option (StreamLife β α)}
    {h : Half} (hlaw : Lawful h use) {e : PartyEvent ω α κ} (hstep : p.step T use e = some q)
    {i : Nat} {cmd : ConnCommand Nat} (hcmd : p.life.commands[i]? = some cmd) :
    q.life.commands[i]? = some cmd := by
  obtain ⟨_, hlife⟩ := step_life hstep
  split at hlife
  · obtain ⟨l, hl, _⟩ := StreamLife.step_history hlaw.history hlife
    rw [StreamLife.commands_append hl]
    exact List.getElem?_append_left (List.getElem?_eq_some_iff.mp hcmd).1 ▸ hcmd
  · rw [hlife]
    exact hcmd

end Party

theorem ConnCommand.ends_of_finMoved {T : Tquic κ} {conn : Option κ} {cmd : ConnCommand Nat}
    {streamId : Nat} (htarget : cmd.target = some (.send streamId))
    (h : cmd.finMoved T conn = true) : cmd.Ends (.send streamId) := by
  cases cmd <;> cases htarget
  case streamWrite data fin n =>
    simp only [finMoved] at h
    split at h
    · exact ⟨(Bool.and_eq_true_iff.mp h).1, rfl⟩
    · cases h
  all_goals cases h

/-! ## The reader -/

namespace RecvLife
variable {s t : RecvLife}

theorem complete_self {f : LifeFuture} {c : Completion} (h : s.complete f c = some t) :
    t.self = s.self := by
  unfold StreamLife.complete at h
  split at h <;> cases h <;> rfl

theorem step_ended {e : LifeEvent RecvOp ReadAnswer} (hstop : ∀ code, e ≠ .use (.stop code))
    (hstep : step s e = some t) (ht : t.self.allDataRead = true) :
    s.self.allDataRead = true ∨ t.dropped = true ∨ ∃ a, e = .answer a ∧ a.fin = true := by
  cases e with
  | use op =>
    simp only [step, StreamLife.step] at hstep
    split at hstep
    · cases op with
      | call c =>
        simp only [use, StreamLife.call] at hstep
        split at hstep
        · split at hstep
          · cases hstep
            exact Or.inl ht
          · obtain ⟨o, _, rfl⟩ := Option.map_eq_some_iff.mp hstep
            exact Or.inl ht
        · cases hstep
      | stop code => exact absurd rfl (hstop code)
      | pollRead maxLen =>
        simp only [use] at hstep
        split at hstep <;> cases hstep <;> exact Or.inl ht
      | drop =>
        cases hstep
        exact Or.inr (Or.inl rfl)
    · cases hstep
  | poll =>
    simp only [step, StreamLife.step] at hstep
    split at hstep
    · split at hstep
      · rw [complete_self hstep] at ht
        exact Or.inl ht
      · cases hstep
        exact Or.inl ht
    · cases hstep
  | answer a =>
    simp only [step, StreamLife.step] at hstep
    split at hstep
    · rename_i caller buf n _
      have hended := StreamHandle.onAnswer_ended s.self buf a
      have hself : t.self = (StreamHandle.onAnswer s.self buf a).1 := by
        unfold StreamLife.answer at hstep
        split at hstep <;> rename_i heq <;> rw [heq]
        · cases hstep
          rfl
        · exact complete_self hstep
      rw [← hself] at hended
      change t.self.allDataRead = (s.self.allDataRead || a.fin) at hended
      rw [ht, eq_comm, Bool.or_eq_true] at hended
      exact hended.imp_right fun hfin => Or.inr ⟨a, rfl, hfin⟩
    · cases hstep
  | waited error =>
    simp only [step, StreamLife.step] at hstep
    split at hstep
    · cases error with
      | some e =>
        rw [complete_self hstep] at ht
        exact Or.inl ht
      | none =>
        cases hstep
        exact Or.inl ht
    · cases hstep
  | cancel =>
    simp only [step, StreamLife.step] at hstep
    split at hstep <;> cases hstep
    exact Or.inl ht
  | unread a =>
    cases hstep
    exact Or.inl ht

theorem completes_none {e : LifeEvent RecvOp ReadAnswer} {buf : Bytes}
    (h : s.completes e = some (.read (.ok none) buf)) :
    s.self.allDataRead = true ∨ ∃ a, e = .answer a ∧ a.fin = true := by
  cases e with
  | poll =>
    simp only [StreamLife.completes] at h
    split at h
    · split at h
      · exact Or.inl ‹_›
      · cases h
    · cases h
  | answer a =>
    simp only [StreamLife.completes] at h
    split at h
    · split at h <;> rename_i hret
      · cases h
        exact Or.inr ⟨a, rfl, RecvStream.onAnswer_none hret⟩
      · cases h
    · cases h
  | waited error =>
    cases error with
    | none => cases h
    | some e =>
      simp only [StreamLife.completes] at h
      split at h <;> cases h
  | _ => cases h

end RecvLife

theorem Party.finMoved_of_answer {T : Tquic κ} {p q : Party RecvStream ReadAnswer κ}
    {e : PartyEvent RecvOp ReadAnswer κ} (hstep : p.step T RecvLife.use e = some q)
    {a : ReadAnswer} (hevent : p.lifeEvent T e = some (.answer a)) (hfin : a.fin = true) :
    p.finMoved T e = true := by
  cases e with
  | handle e =>
    cases hevent
    simp [step, LifeEvent.isOwn] at hstep
  | process =>
    simp only [lifeEvent] at hevent
    cases hnext : p.next with
    | none => simp only [hnext] at hevent; cases hevent
    | some cmd =>
      simp only [hnext, finMoved, processes] at hevent ⊢
      obtain ⟨⟨n, a'⟩, hanswer, harrives⟩ := Option.map_eq_some_iff.mp hevent
      obtain rfl : a' = a := by
        simp only [LifeEvent.arrives] at harrives
        split at harrives
        · split at harrives <;> cases harrives
          rfl
        · cases harrives
      exact CountedHandle.answer_fin hanswer hfin
  | gone =>
    cases hevent
    cases hfin
  | engine conn => cases hevent

theorem Outcome.CleanEnd.not_idle {c : Call} {o : Outcome} (h : c.idle = some o) : ¬ o.CleanEnd := by
  unfold Call.idle at h
  split at h <;> cases h <;> exact id

theorem Caller.onCompletion_readToEnd {caller : Caller} {c : Completion} {data : Bytes}
    (h : caller.onCompletion c = some (.readToEnd (.ok data))) :
    ∃ sizeLimit, caller = .readToEnd data sizeLimit := by
  unfold onCompletion at h
  split at h
  case h_1 | h_4 => cases h
  case h_6 => cases h
  case h_2 result buf =>
    rcases result with e | _ | n
    · cases h
    · cases h
    · simp only at h
      split at h <;> cases h
  case h_3 data' sizeLimit result buf =>
    rcases result with e | _ | n
    · cases h
    · cases h
      exact ⟨sizeLimit, rfl⟩
    · simp only at h
      split at h <;> cases h
  case h_5 result buf =>
    rcases result with e | n
    · cases h
    · simp only at h
      split at h <;> cases h

theorem Moves.clean {future future' : Option LifeFuture} {c : Option Completion}
    {l : List Outcome} (h : Moves future c future' l) {o : Outcome} (ho : o ∈ l)
    (hclean : o.CleanEnd) : ∃ f buf, future = some f ∧ c = some (.read (.ok none) buf) ∧
      f.caller.onCompletion (.read (.ok none) buf) = some o := by
  cases h with
  | idles _ hidle =>
    cases List.mem_singleton.mp ho
    exact absurd hclean (Outcome.CleanEnd.not_idle hidle)
  | @returns f c o' hf hreturns _ =>
    cases List.mem_singleton.mp ho
    obtain ⟨buf, rfl⟩ := Caller.onCompletion_clean hreturns hclean
    exact ⟨f, buf, hf, rfl, hreturns⟩
  | _ => cases ho

/-! ## Both ends -/

structure Transfer (κ : Type u) where
  send : Ledger SendStream WriteAnswer κ
  recv : Ledger RecvStream ReadAnswer κ

namespace Transfer

def init (sendConnId recvConnId streamId : Nat) (sendConn recvConn : κ) : Transfer κ where
  send := .init ⟨sendConnId, streamId, false⟩ sendConn
  recv := .init ⟨recvConnId, streamId, false⟩ recvConn

def step (T : Tquic κ) (s : Transfer κ) : PairEvent κ → Option (Transfer κ)
  | .send e => (s.send.step T SendLife.use e).map fun send => { s with send := send }
  | .recv e => (s.recv.step T RecvLife.use e).map fun recv => { s with recv := recv }

/-- The transport hands out the bytes that the other engine took, and FIN after all of them. -/
def Honest (T : Tquic κ) (s : Transfer κ) : PairEvent κ → Prop
  | .recv e => s.recv.moved ++ s.recv.party.moved T e <+: s.send.moved ∧
      (s.recv.party.finMoved T e = true →
        s.recv.moved ++ s.recv.party.moved T e = s.send.moved ∧ s.send.fin = true)
  | .send _ => True

/-- No future is given up with bytes on their way to it, and there is no `poll_read` and no
`poll_write` that moves any. -/
def KeepsBytes (T : Tquic κ) (s : Transfer κ) : PairEvent κ → Prop
  | .send e => s.send.party.KeepsBytes T e
  | .recv e => s.recv.party.KeepsBytes T e

def ReadsOn (_ : Transfer κ) : PairEvent κ → Prop
  | .recv (.handle (.use (.stop _))) => False
  | _ => True

def Attentive (T : Tquic κ) (s : Transfer κ) (e : PairEvent κ) : Prop :=
  s.Honest T e ∧ s.KeepsBytes T e ∧ s.ReadsOn e

def pair (s : Transfer κ) : StreamPair κ := ⟨s.send.party, s.recv.party⟩

/-- The ledgers only watch. -/
theorem step_pair (T : Tquic κ) (s : Transfer κ) (e : PairEvent κ) :
    (s.step T e).map pair = s.pair.step T e := by
  cases e with
  | send e =>
    simp only [step, StreamPair.step, pair, ← Ledger.step_party, Option.map_map]
    rfl
  | recv e =>
    simp only [step, StreamPair.step, pair, ← Ledger.step_party, Option.map_map]
    rfl

def Reported (s : Transfer κ) : Bytes × Bytes × Outcome → Prop
  | (before, after, o) => o.CleanEnd → s.recv.fin = true ∧ after = s.recv.reported ∧
      ∀ data, o = .readToEnd (.ok data) → after = before ++ data

structure Sound (streamId : Nat) (s : Transfer κ) : Prop where
  send : s.send.Sound (.send streamId)
  recv : s.recv.Sound (.recv streamId)
  closed : s.send.fin = true → ∃ i cmd, i < s.send.party.done ∧
    s.send.party.life.commands[i]? = some cmd ∧ cmd.Ends (.send streamId)
  handed : s.recv.moved <+: s.send.moved
  whole : s.recv.fin = true → s.send.fin = true ∧ s.recv.moved = s.send.moved
  ended : s.recv.party.life.self.allDataRead = true →
    s.recv.party.life.dropped = true ∨ s.recv.fin = true
  results : ∀ x ∈ s.recv.results, s.Reported x

variable {T : Tquic κ} {s t : Transfer κ} {streamId : Nat}

theorem Sound.taken (hs : s.Sound streamId) (hfin : s.send.fin = true)
    (e : PartyEvent SendOp WriteAnswer κ) : s.send.party.moved T e = [] := by
  obtain ⟨i, cmd, hi, hcmd, hends⟩ := hs.closed hfin
  obtain ⟨_, hlength⟩ := SendLife.last_command hs.send.disciplined hcmd hends
  have hnext : s.send.party.next = none := List.getElem?_eq_none (by
    change s.send.party.life.commands.length ≤ _
    omega)
  cases e with
  | process => simp only [Party.moved, Party.processes, hnext]
  | _ => rfl

theorem sound_send {e : PartyEvent SendOp WriteAnswer κ} (hs : s.Sound streamId)
    (hkeep : s.send.party.KeepsBytes T e) {send : Ledger SendStream WriteAnswer κ}
    (hstep : s.send.step T SendLife.use e = some send) :
    ({ s with send := send } : Transfer κ).Sound streamId := by
  have hlaw : Party.Lawful (.send streamId) SendLife.use :=
    ⟨SendLife.use_history, SendLife.use_disciplined⟩
  have hsend := Ledger.sound_step hlaw SendLife.use_uses hs.send hkeep hstep
  obtain ⟨q, hq, rfl⟩ := Option.map_eq_some_iff.mp hstep
  obtain ⟨hdone, _⟩ := Party.step_life hq
  refine ⟨hsend, hs.recv, ?_, hs.handed.trans (List.prefix_append _ _), ?_, hs.ended, hs.results⟩
  · intro hfin
    simp only [Ledger.record, Bool.or_eq_true] at hfin ⊢
    rcases hfin with hfin | hfin
    · obtain ⟨i, cmd, hi, hcmd, hends⟩ := hs.closed hfin
      exact ⟨i, cmd, by omega, Party.step_commands hlaw hq hcmd, hends⟩
    · simp only [Party.finMoved] at hfin
      split at hfin
      · rename_i cmd hcmd
        have hnext : s.send.party.life.commands[s.send.party.done]? = some cmd := by
          cases e with
          | process => exact hcmd
          | _ => cases hcmd
        have hown := hs.send.disciplined.own cmd
          (Entry.sent_of_command (List.mem_of_getElem? hnext))
        rw [hcmd] at hdone
        refine ⟨_, cmd, ?_, Party.step_commands hlaw hq hnext,
          ConnCommand.ends_of_finMoved hown hfin⟩
        simp [hdone]
      · cases hfin
  · intro hfin
    obtain ⟨hclosed, hmoved⟩ := hs.whole hfin
    refine ⟨by simp [Ledger.record, hclosed], ?_⟩
    simp only [Ledger.record, hs.taken hclosed, List.append_nil]
    exact hmoved

theorem Sound.given (hs : s.Sound streamId) (hfin : s.recv.fin = true)
    {e : PartyEvent RecvOp ReadAnswer κ} (hhonest : s.Honest T (.recv e)) :
    s.recv.party.moved T e = [] := by
  have hgiven := hhonest.1
  rw [← (hs.whole hfin).2] at hgiven
  have hlength := hgiven.length_le
  rw [List.length_append] at hlength
  exact List.eq_nil_of_length_eq_zero (by omega)

theorem Sound.reads {e : PartyEvent RecvOp ReadAnswer κ} (hs : s.Sound streamId)
    (hstop : s.ReadsOn (.recv e)) {q : Party RecvStream ReadAnswer κ}
    (hq : s.recv.party.step T RecvLife.use e = some q) (hended : q.life.self.allDataRead = true) :
    q.life.dropped = true ∨ (s.recv.fin || s.recv.party.finMoved T e) = true := by
  obtain ⟨_, hlife⟩ := Party.step_life hq
  rw [Bool.or_eq_true]
  cases hevent : s.recv.party.lifeEvent T e with
  | none =>
    rw [hevent] at hlife
    rw [hlife] at hended ⊢
    exact (hs.ended hended).imp_right Or.inl
  | some event =>
    rw [hevent] at hlife
    have hown : ∀ code, event ≠ .use (.stop code) := by
      rintro code rfl
      cases e with
      | handle e =>
        cases hevent
        exact hstop
      | process =>
        simp only [Party.lifeEvent] at hevent
        split at hevent
        · cases hevent
        · obtain ⟨⟨n, a⟩, _, harrives⟩ := Option.map_eq_some_iff.mp hevent
          simp only [LifeEvent.arrives] at harrives
          split at harrives
          · split at harrives <;> cases harrives
          · cases harrives
      | gone => cases hevent
      | engine conn => cases hevent
    rcases RecvLife.step_ended hown hlife hended with hbefore | hdropped | ⟨a, rfl, hfin⟩
    · rcases hs.ended hbefore with hdropped | hfin
      · exact Or.inl (StreamLife.step_dropped (hs.recv.idle hdropped) hlife hdropped)
      · exact Or.inr (Or.inl hfin)
    · exact Or.inl hdropped
    · exact Or.inr (Or.inr (Party.finMoved_of_answer hq hevent hfin))

theorem Sound.returns {e : PartyEvent RecvOp ReadAnswer κ} (hs : s.Sound streamId)
    {q : Party RecvStream ReadAnswer κ} (hq : s.recv.party.step T RecvLife.use e = some q)
    {o : Outcome} (ho : o ∈ s.recv.party.life.returns q.life) (hclean : o.CleanEnd) :
    (s.recv.fin || s.recv.party.finMoved T e) = true ∧ s.recv.party.reports T e = [] ∧
      ∀ data, o = .readToEnd (.ok data) → s.recv.reported = s.recv.start ++ data := by
  obtain ⟨f, buf, hf, hcompletes, hreturns⟩ :=
    (Party.step_moves RecvLife.use_uses hq).clean ho hclean
  refine ⟨?_, ?_, ?_⟩
  · rw [Bool.or_eq_true]
    obtain ⟨event, hevent, hnone⟩ := Option.bind_eq_some_iff.mp hcompletes
    rcases RecvLife.completes_none hnone with hended | ⟨a, rfl, hfin⟩
    · refine Or.inl ((hs.ended hended).resolve_left fun hdropped => ?_)
      rw [hs.recv.idle hdropped] at hf
      cases hf
    · exact Or.inr (Party.finMoved_of_answer hq hevent hfin)
  · rw [Party.reports, hcompletes]
    rfl
  · rintro data rfl
    obtain ⟨sizeLimit, hcaller⟩ := Caller.onCompletion_readToEnd hreturns
    rw [Ledger.start, hf]
    exact hs.recv.data f data sizeLimit hf hcaller

theorem sound_recv {e : PartyEvent RecvOp ReadAnswer κ} (hs : s.Sound streamId)
    (hguard : s.Attentive T (.recv e)) {recv : Ledger RecvStream ReadAnswer κ}
    (hstep : s.recv.step T RecvLife.use e = some recv) :
    ({ s with recv := recv } : Transfer κ).Sound streamId := by
  obtain ⟨hhonest, hkeep, hstop⟩ := hguard
  have hlaw : Party.Lawful (.recv streamId) RecvLife.use :=
    ⟨RecvLife.use_history, RecvLife.use_disciplined⟩
  have hrecv := Ledger.sound_step hlaw RecvLife.use_uses hs.recv hkeep hstep
  obtain ⟨q, hq, rfl⟩ := Option.map_eq_some_iff.mp hstep
  have hreports := Party.reports_moved hs.recv.numbered hkeep hq
  refine ⟨hs.send, hrecv, hs.closed, hhonest.1, ?_, hs.reads hstop hq, ?_⟩
  · intro hfin
    simp only [Ledger.record, Bool.or_eq_true] at hfin ⊢
    rcases hfin with hfin | hfin
    · rw [hs.given hfin hhonest, List.append_nil]
      exact hs.whole hfin
    · exact (hhonest.2 hfin).symm
  · rintro ⟨before, after, o⟩ hmem hclean
    rcases List.mem_append.mp hmem with hmem | hmem
    · -- nothing is reported after the end
      obtain ⟨hfin, hafter, hdata⟩ := hs.results _ hmem hclean
      refine ⟨by simp [Ledger.record, hfin], ?_, hdata⟩
      simp only [Ledger.record, hreports, hs.given hfin hhonest, List.append_nil]
      exact hafter
    · obtain ⟨o', ho, heq⟩ := List.mem_map.mp hmem
      cases heq
      obtain ⟨hfin, hnothing, hdata⟩ := hs.returns hq ho hclean
      refine ⟨hfin, rfl, fun data hread => ?_⟩
      rw [hnothing, List.append_nil]
      exact hdata data hread

theorem sound_init (sendConnId recvConnId streamId : Nat) (sendConn recvConn : κ) :
    (init sendConnId recvConnId streamId sendConn recvConn).Sound streamId where
  send := Ledger.sound_init (⟨sendConnId, streamId, false⟩ : SendStream) sendConn rfl
  recv := Ledger.sound_init (⟨recvConnId, streamId, false⟩ : RecvStream) recvConn rfl
  closed := nofun
  handed := List.prefix_refl _
  whole := nofun
  ended := nofun
  results := nofun

/-- What the reader's calls report is the beginning of what the writer's calls reported.
When one of them reports the end of the stream, it is all of that, and the writer has finished;
a `read_to_end` then returned what was left when it was called. -/
theorem whole_message (T : Tquic κ) (sendConnId recvConnId streamId : Nat)
    (sendConn recvConn : κ) (s : Transfer κ)
    (hs : Reach (step T) (Attentive T)
      (init sendConnId recvConnId streamId sendConn recvConn) s) :
    s.recv.reported <+: s.send.reported ∧
    ∀ before after o, (before, after, o) ∈ s.recv.results → o.CleanEnd →
      after = s.send.reported ∧ s.send.party.life.self.finished = true ∧
      ∀ data, o = .readToEnd (.ok data) → before ++ data = s.send.reported := by
  have hsound : s.Sound streamId := by
    apply hs.invariant
    · intro s e t hs hguard hstep
      cases e with
      | send e =>
        obtain ⟨send, hsend, rfl⟩ := Option.map_eq_some_iff.mp hstep
        exact sound_send hs hguard.2.1 hsend
      | recv e =>
        obtain ⟨recv, hrecv, rfl⟩ := Option.map_eq_some_iff.mp hstep
        exact sound_recv hs hguard hrecv
    · exact sound_init sendConnId recvConnId streamId sendConn recvConn
  have hhanded := hsound.handed
  rw [← hsound.recv.balanced, ← hsound.send.balanced] at hhanded
  refine ⟨hhanded, fun before after o ho hclean => ?_⟩
  obtain ⟨hfin, hafter, hdata⟩ := hsound.results _ ho hclean
  obtain ⟨hclosed, hmoved⟩ := hsound.whole hfin
  obtain ⟨i, cmd, _, hcmd, hends⟩ := hsound.closed hclosed
  have hall : after = s.send.reported := by
    rw [hafter, hsound.recv.balanced, hmoved, hsound.send.balanced]
  refine ⟨hall, (SendLife.last_command hsound.send.disciplined hcmd hends).1, fun data hread => ?_⟩
  rw [← hdata data hread, hall]

/-- `write_all` in two pieces and `finish`; the third `read` reports the end. -/
def piecesRun : List (PairEvent Script) :=
  [.send (.handle (.use (.call (.writeAll [7, 8])))), .send (.handle .poll), .send .process,
    .send (.handle .poll), .send .process, .send (.handle (.use .finish)), .send .process,
    .recv (.handle (.use (.call (.read [0])))), .recv (.handle .poll), .recv .process,
    .recv (.handle (.use (.call (.read [0])))), .recv (.handle .poll), .recv .process,
    .recv (.handle (.use (.call (.read [0])))), .recv (.handle .poll)]

theorem whole_message_pieces :
    ∃ s, run (step Tquic.scripted) (init 1 2 4 { writes := [.ok 1, .ok 1, .ok 0] }
          { reads := [.ok ([7], false), .ok ([8], true)] }) piecesRun = some s ∧
      ([7, 8], [7, 8], .read (.ok none)) ∈ s.recv.results ∧ s.send.reported = [7, 8] ∧
      s.send.party.life.self.finished = true := by
  obtain ⟨s, hrun, hresults, hattentive⟩ : ∃ s, run (step Tquic.scripted)
        (init 1 2 4 { writes := [.ok 1, .ok 1, .ok 0] }
          { reads := [.ok ([7], false), .ok ([8], true)] }) piecesRun = some s ∧
      s.recv.results = [([], [7], .read (.ok (some 1))), ([7], [7, 8], .read (.ok (some 1))),
        ([7, 8], [7, 8], .read (.ok none))] ∧
      Along (step Tquic.scripted) (Attentive Tquic.scripted)
        (init 1 2 4 { writes := [.ok 1, .ok 1, .ok 0] }
          { reads := [.ok ([7], false), .ok ([8], true)] }) piecesRun := by
    refine ⟨_, rfl, rfl, ⟨trivial, nofun, trivial⟩, ⟨trivial, nofun, trivial⟩,
      ⟨trivial, fun _ _ => Or.inl ⟨_, rfl, rfl⟩, trivial⟩, ⟨trivial, nofun, trivial⟩,
      ⟨trivial, fun _ _ => Or.inl ⟨_, rfl, rfl⟩, trivial⟩, ⟨trivial, nofun, trivial⟩,
      ⟨trivial, fun _ h => Or.inr (by cases h; rfl), trivial⟩,
      ⟨⟨by decide, nofun⟩, nofun, trivial⟩, ⟨⟨by decide, nofun⟩, nofun, trivial⟩,
      ⟨⟨by decide, nofun⟩, fun _ _ => Or.inl ⟨_, rfl, rfl⟩, trivial⟩,
      ⟨⟨by decide, nofun⟩, nofun, trivial⟩, ⟨⟨by decide, nofun⟩, nofun, trivial⟩,
      ⟨⟨by decide, fun _ => by decide⟩, fun _ _ => Or.inl ⟨_, rfl, rfl⟩, trivial⟩,
      ⟨⟨by decide, nofun⟩, nofun, trivial⟩, ⟨⟨by decide, nofun⟩, nofun, trivial⟩, trivial⟩
  have hended : ([7, 8], [7, 8], .read (.ok none)) ∈ s.recv.results := by
    rw [hresults]
    simp
  obtain ⟨hall, hfinished, _⟩ := (whole_message Tquic.scripted 1 2 4 _ _ s
    (reach_of_along hrun hattentive)).2 [7, 8] [7, 8] _ hended trivial
  exact ⟨s, hrun, hended, hall.symm, hfinished⟩

end Transfer

end TokioTquic
