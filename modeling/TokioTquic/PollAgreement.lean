import TokioTquic.PollIo

/-!
# What the poll functions report

A poll of an open half is pending whatever the engine answered, so nothing the
engine moved and no error it answered is ever reported.
-/

namespace TokioTquic
open Async
set_option autoImplicit false

universe u
variable {κ : Type u}

namespace Answer

def Of : Half → Answer → Prop
  | .send _, .write _ _ => True
  | .recv _, .read _ _ => True
  | _, _ => False

/-- The engine moved nothing and answered no error. -/
def Quiet (a : Answer) : Prop := a.moved = [] ∧ ¬ a.Failed

theorem quiet_write {a : Answer} {streamId : Nat} (hof : a.Of (.send streamId))
    (hlegal : a.Legal) : a.Quiet ↔ ∃ data, a = .write data (.error .done) := by
  cases a with
  | read => exact absurd hof id
  | write data result =>
    cases result with
    | error e => simp [Quiet, moved, Failed]
    | ok n =>
      obtain ⟨hpos, hle⟩ := hlegal
      have hne : data.take n ≠ [] := by
        rw [← List.length_pos_iff, List.length_take]
        omega
      simp [Quiet, moved, hne]

theorem quiet_read {a : Answer} {streamId : Nat} (hof : a.Of (.recv streamId))
    (hlegal : a.Legal) : a.Quiet ↔
      ∃ maxLen, a = .read maxLen (.error .done) ∨ a = .read maxLen (.ok ([], true)) := by
  cases a with
  | write => exact absurd hof id
  | read maxLen result =>
    rcases result with e | ⟨data, fin⟩
    · simp [Quiet, moved, Failed]
    · obtain ⟨hdata, _⟩ := hlegal
      cases data <;> cases fin <;> simp_all [Quiet, moved, Failed]

end Answer

namespace PollIo

def silentReturn (ended : Bool) : Half → Poll (Except IoError Bytes)
  | .recv _ => if ended then .ready (.ok []) else .pending
  | .send _ => if ended then .ready (.error ⟨.brokenPipe, "stream finished"⟩) else .pending

structure Silent (h : Half) (ended : Bool) (s : PollIo κ) : Prop where
  recv : s.recv.allDataRead = ended
  send : s.send.finished = ended
  polls : ∀ p ∈ s.polls, p.2 = silentReturn ended h
  queue : ∀ cmd ∈ s.bridge.queue, ∃ buf id, cmd = h.request buf id
  answers : ∀ a ∈ s.answers, a.Of h ∧ a.Legal
  unused : ended = true → s.bridge.queue = [] ∧ s.answers = []

theorem pollHalf_silent {s : PollIo κ} {h : Half} {ended : Bool} (hs : s.Silent h ended)
    (buf : Bytes) : s.pollHalf buf h = silentReturn ended h := by
  cases h with
  | recv streamId =>
    cases ended <;> simp [pollHalf, RecvStream.pollRead, hs.recv, silentReturn, Except.map]
  | send streamId =>
    cases ended <;> simp [pollHalf, SendStream.pollWrite, hs.send, silentReturn, Except.map]

structure SameBooks (s s' : PollIo κ) : Prop where
  recv : s'.recv = s.recv
  send : s'.send = s.send
  polls : s'.polls = s.polls
  queue : s'.bridge.queue = s.bridge.queue
  answers : s'.answers = s.answers

theorem Silent.same {s s' : PollIo κ} {h : Half} {ended : Bool} (hs : s.Silent h ended)
    (hsame : SameBooks s s') : s'.Silent h ended where
  recv := by rw [hsame.recv, hs.recv]
  send := by rw [hsame.send, hs.send]
  polls := by rw [hsame.polls]; exact hs.polls
  queue := by rw [hsame.queue]; exact hs.queue
  answers := by rw [hsame.answers]; exact hs.answers
  unused := by rw [hsame.queue, hsame.answers]; exact hs.unused

theorem stepTask_same {s s' : PollIo κ} {h : Half} {id : Nat} {task : TaskPoint}
    (hs : s.stepTask h id task = some s') : SameBooks s s' := by
  unfold stepTask at hs
  split at hs
  · simp at hs
  · cases hs
    split <;> exact ⟨rfl, rfl, rfl, rfl, rfl⟩
  · cases hs
    exact ⟨rfl, rfl, rfl, rfl, rfl⟩
  all_goals
    split at hs
    · cases hs
      split <;> exact ⟨rfl, rfl, rfl, rfl, rfl⟩
    · simp at hs

theorem deliver_same (s : PollIo κ) (x : Option (Nat × Reply)) : SameBooks s (s.deliver x) := by
  unfold deliver
  split
  · split <;> exact ⟨rfl, rfl, rfl, rfl, rfl⟩
  · exact ⟨rfl, rfl, rfl, rfl, rfl⟩

theorem request_answer (T : Tquic κ) (c : κ) (h : Half) (buf : Bytes) (id : Nat) :
    ∃ a, (h.request buf id).answer T c = some a ∧ a.Of h := by
  cases h <;> exact ⟨_, rfl, trivial⟩

theorem silent_process {T : Tquic κ} {h : Half} {ended : Bool} {s s' : PollIo κ}
    (hs : s.Silent h ended) (hguard : s.Contract T h .process)
    (hstep : s.step T h .process = some s') :
    s'.Silent h ended ∧ ∃ a, s'.answers = s.answers ++ [a] := by
  simp only [step] at hstep
  split at hstep
  · rename_i cmd b reply hp
    cases hstep
    obtain ⟨_, hqueue, _, _, _⟩ := Bridge.process_some hp
    obtain ⟨c, hc, hlegal⟩ := hguard
    obtain ⟨buf, id, rfl⟩ := hs.queue cmd (by simp [hqueue])
    obtain ⟨a, ha, hof⟩ := request_answer T c h buf id
    have hrecord : ({ s with bridge := b } : PollIo κ).recordAnswer T s.bridge.conn
        (h.request buf id) = { s with bridge := b, answers := s.answers ++ [a] } := by
      simp [recordAnswer, hc, ha]
    have hsame := deliver_same
      ({ s with bridge := b, answers := s.answers ++ [a] } : PollIo κ) reply
    rw [hrecord]
    refine ⟨Silent.same ?_ hsame, a, hsame.answers⟩
    refine ⟨hs.recv, hs.send, hs.polls, ?_, ?_, ?_⟩
    · exact fun cmd hcmd => hs.queue cmd (by simp [hqueue, hcmd])
    · intro a' ha'
      rcases List.mem_append.mp ha' with ha' | ha'
      · exact hs.answers a' ha'
      · obtain rfl := List.mem_singleton.mp ha'
        exact ⟨hof, hlegal _ (by simp [hqueue]) _ ha⟩
    · intro hended
      simp [(hs.unused hended).1] at hqueue
  · simp at hstep

theorem silent_poll {T : Tquic κ} {h : Half} {ended : Bool} {s s' : PollIo κ} {buf : Bytes}
    (hs : s.Silent h ended) (hstep : s.step T h (.poll buf) = some s') :
    s'.Silent h ended ∧ s'.answers = s.answers := by
  have hreturn := pollHalf_silent hs buf
  have hpolls : ∀ p ∈ s.polls ++ [(buf, s.pollHalf buf h)], p.2 = silentReturn ended h := by
    intro p hp
    rcases List.mem_append.mp hp with hp | hp
    · exact hs.polls p hp
    · obtain rfl := List.mem_singleton.mp hp
      exact hreturn
  have hkept : ∀ polls, pollHalf { s with polls := polls } buf h = s.pollHalf buf h := by
    intro polls
    cases h <;> rfl
  simp only [step, hkept] at hstep
  split at hstep
  · cases hstep
    exact ⟨⟨hs.recv, hs.send, hpolls, hs.queue, hs.answers, hs.unused⟩, rfl⟩
  · rename_i hpending
    cases hstep
    have hopen : ended = false := by
      rw [hreturn] at hpending
      cases h <;> cases ended <;> simp_all [silentReturn]
    refine ⟨⟨hs.recv, hs.send, hpolls, ?_, hs.answers, by simp [hopen]⟩, rfl⟩
    intro cmd hcmd
    rcases List.mem_append.mp hcmd with hcmd | hcmd
    · exact hs.queue cmd hcmd
    · obtain rfl := List.mem_singleton.mp hcmd
      exact ⟨buf, s.next, rfl⟩

theorem silent_step {T : Tquic κ} {h : Half} {ended : Bool} {s s' : PollIo κ} {e : PollEvent κ}
    (hs : s.Silent h ended) (hguard : s.Contract T h e) (hstep : s.step T h e = some s') :
    s'.Silent h ended ∧ s.answers <+: s'.answers := by
  cases e with
  | process =>
    obtain ⟨hsilent, a, ha⟩ := silent_process hs hguard hstep
    exact ⟨hsilent, [a], ha.symm⟩
  | bridge e =>
    simp only [step] at hstep
    split at hstep
    · rename_i b hb
      cases hstep
      exact ⟨hs.same ⟨rfl, rfl, rfl, (Bridge.step_cn hb).1, rfl⟩, List.prefix_refl _⟩
    · simp at hstep
  | poll buf =>
    obtain ⟨hsilent, hsame⟩ := silent_poll hs hstep
    exact ⟨hsilent, hsame ▸ List.prefix_refl _⟩
  | task id =>
    simp only [step] at hstep
    split at hstep
    · have hsame := stepTask_same hstep
      exact ⟨hs.same hsame, hsame.answers ▸ List.prefix_refl _⟩
    · simp at hstep

theorem silent_reach {T : Tquic κ} {h : Half} {ended : Bool} {s t : PollIo κ}
    (hst : Reach (step T h) (Contract T h) s t) (hs : s.Silent h ended) :
    t.Silent h ended ∧ s.answers <+: t.answers := by
  induction hst with
  | refl => exact ⟨hs, List.prefix_refl _⟩
  | tail _ hguard hstep ih =>
    obtain ⟨hsilent, hbefore⟩ := silent_step ih.1 hguard hstep
    exact ⟨hsilent, ih.2.trans hbefore⟩

theorem silent_init (h : Half) (connId streamId : Nat) (conn : κ) (remoteAddr : SocketAddr)
    (isServer ended : Bool) :
    (init connId streamId conn remoteAddr isServer ended).Silent h ended :=
  ⟨rfl, rfl, by simp [init], by simp [init], by simp [init], fun _ => ⟨rfl, rfl⟩⟩

theorem agrees_iff_quiet {h : Half} {ended : Bool} {s : PollIo κ} (hs : s.Silent h ended) :
    s.Agrees ↔ ∀ a ∈ s.answers, a.Quiet := by
  have hreported : s.reported = [] := by
    unfold reported
    rw [List.flatMap_eq_nil_iff]
    intro p hp
    rw [hs.polls p hp]
    cases h <;> cases ended <;> rfl
  constructor
  · intro hagrees a ha
    have hmoved : s.moved = [] := by rw [← hagrees.bytes, hreported]
    refine ⟨List.flatMap_eq_nil_iff.mp hmoved a ha, fun hfailed => ?_⟩
    obtain ⟨p, hp, e, he⟩ := hagrees.errors ⟨a, ha, hfailed⟩
    rw [hs.polls p hp] at he
    cases ended with
    | false => cases h <;> simp [silentReturn] at he
    | true => simp [(hs.unused rfl).2] at ha
  · intro hquiet
    refine ⟨?_, ?_⟩
    · rw [hreported]
      exact (List.flatMap_eq_nil_iff.mpr fun a ha => (hquiet a ha).1).symm
    · rintro ⟨a, ha, hfailed⟩
      exact absurd hfailed (hquiet a ha).2

/-- The same in terms of the answers that are quiet among those a half can get. -/
theorem agrees_iff_answers {h : Half} {ended : Bool} {s : PollIo κ} (hs : s.Silent h ended)
    {P : Answer → Prop} (hP : ∀ a : Answer, a.Of h → a.Legal → (a.Quiet ↔ P a)) :
    s.Agrees ↔ ∀ a ∈ s.answers, P a := by
  rw [agrees_iff_quiet hs]
  refine forall₂_congr fun a ha => ?_
  obtain ⟨hof, hlegal⟩ := hs.answers a ha
  exact hP a hof hlegal

theorem endsAtFin_of_silent {h : Half} {ended : Bool} {s : PollIo κ} (hs : s.Silent h ended) :
    s.EndsAtFin ended := by
  intro p hp hready
  rw [hs.polls p hp] at hready
  cases ended with
  | true => exact Or.inl rfl
  | false => cases h <;> simp [silentReturn] at hready

theorem agrees_of_later {T : Tquic κ} {h : Half} {ended : Bool} {s t : PollIo κ}
    (hs : s.Silent h ended) (hst : Reach (step T h) (Contract T h) s t) (ht : t.Agrees) :
    s.Agrees := by
  obtain ⟨hsilent, hbefore⟩ := silent_reach hst hs
  have hquiet := (agrees_iff_quiet hsilent).mp ht
  exact (agrees_iff_quiet hs).mpr fun a ha => hquiet a (hbefore.subset ha)

theorem contract_process {T : Tquic κ} {h : Half} {s : PollIo κ} {c : κ} {a : Answer}
    {cmd : ConnCommand Nat} {queue : List (ConnCommand Nat)} (hc : s.bridge.conn = some c)
    (hqueue : s.bridge.queue = cmd :: queue) (ha : cmd.answer T c = some a) (hlegal : a.Legal) :
    s.Contract T h .process := by
  refine ⟨c, hc, fun cmd' hcmd a' ha' => ?_⟩
  obtain rfl : cmd = cmd' := by simpa [hqueue] using hcmd
  obtain rfl := Option.some.inj (ha.symm.trans ha')
  exact hlegal

/-! ## `poll_write` -/

/-- The polls agree with the engine exactly as long as it answers `Done`. -/
theorem poll_write_agrees_iff (T : Tquic κ) (connId streamId : Nat) (conn : κ)
    (remoteAddr : SocketAddr) (isServer finished : Bool) (s : PollIo κ)
    (hs : Reach (step T (.send streamId)) (Contract T (.send streamId))
      (init connId streamId conn remoteAddr isServer finished) s) :
    (s.Agrees ↔ ∀ a ∈ s.answers, ∃ data, a = .write data (.error .done)) ∧
      ∀ t, Reach (step T (.send streamId)) (Contract T (.send streamId)) s t →
        t.Agrees → s.Agrees := by
  have hsilent := (silent_reach hs
    (silent_init (.send streamId) connId streamId conn remoteAddr isServer finished)).1
  exact ⟨agrees_iff_answers hsilent fun _ => Answer.quiet_write,
    fun t hst => agrees_of_later hsilent hst⟩

theorem poll_write_agrees_blocked :
    ∃ s : PollIo Script, s.answers = [.write [7] (.error .done)] ∧ s.Agrees := by
  obtain ⟨s, hs, hanswers⟩ :
      ∃ s, Reach (step Tquic.scripted (.send 0)) (Contract Tquic.scripted (.send 0))
          (init 0 0 {} .unspecified false false) s ∧
        s.answers = [.write [7] (.error .done)] :=
    ⟨_, ((Reach.refl _).event (.poll [7]) ⟨nofun, nofun⟩ rfl).event .process
      (contract_process rfl rfl rfl (by trivial)) rfl, rfl⟩
  refine ⟨s, hanswers,
    (poll_write_agrees_iff Tquic.scripted 0 0 {} .unspecified false false s hs).1.mpr ?_⟩
  intro a ha
  rw [hanswers] at ha
  exact ⟨[7], List.mem_singleton.mp ha⟩

/-- The caller polls with a byte, is woken after the answer and has to offer it again. -/
def offerAgainRun : List (PollEvent Script) := [.poll [7], .process, .task 0, .poll [7]]

def offeredTwiceRun : List (PollEvent Script) := offerAgainRun ++ [.process]

/-- The byte is sent twice and never reported. A stop is not reported either. -/
theorem poll_write_disagrees :
    (¬ ∀ s, Reach (step Tquic.scripted (.send 0)) (Contract Tquic.scripted (.send 0))
        (init 0 0 { writes := [.ok 1, .ok 1] } .unspecified false false) s → s.Agrees) ∧
    ¬ ∀ s, Reach (step Tquic.scripted (.send 0)) (Contract Tquic.scripted (.send 0))
        (init 0 0 { writes := [.error (.streamStopped 5)] } .unspecified false false) s →
      s.Agrees := by
  constructor
  · intro hall
    obtain ⟨s, hrun, hmoved, hreported, hcontract⟩ :
        ∃ s, run (step Tquic.scripted (.send 0))
            (init 0 0 { writes := [.ok 1, .ok 1] } .unspecified false false)
            offeredTwiceRun = some s ∧ s.moved = [7, 7] ∧ s.reported = [] ∧
          Along (step Tquic.scripted (.send 0)) (Contract Tquic.scripted (.send 0))
            (init 0 0 { writes := [.ok 1, .ok 1] } .unspecified false false)
            offeredTwiceRun :=
      ⟨_, rfl, rfl, rfl, ⟨nofun, nofun⟩,
        contract_process rfl rfl rfl (by exact ⟨by decide, by decide⟩), trivial,
        ⟨fun _ hb => ⟨Option.some.inj hb, rfl⟩, nofun⟩,
        contract_process rfl rfl rfl (by exact ⟨by decide, by decide⟩), trivial⟩
    have hbytes := (hall s (reach_of_along hrun hcontract)).bytes
    simp [hmoved, hreported] at hbytes
  · intro hall
    obtain ⟨s, hrun, hanswers, hpolls, hcontract⟩ :
        ∃ s, run (step Tquic.scripted (.send 0))
            (init 0 0 { writes := [.error (.streamStopped 5)] } .unspecified false false)
            offerAgainRun = some s ∧
          s.answers = [.write [7] (.error (.streamStopped 5))] ∧
          s.polls = [([7], .pending), ([7], .pending)] ∧
          Along (step Tquic.scripted (.send 0)) (Contract Tquic.scripted (.send 0))
            (init 0 0 { writes := [.error (.streamStopped 5)] } .unspecified false false)
            offerAgainRun :=
      ⟨_, rfl, rfl, rfl, ⟨nofun, nofun⟩, contract_process rfl rfl rfl (by trivial), trivial,
        ⟨fun _ hb => ⟨Option.some.inj hb, rfl⟩, nofun⟩, trivial⟩
    have herror := (hall s (reach_of_along hrun hcontract)).errors
      ⟨.write [7] (.error (.streamStopped 5)), by simp [hanswers], by simp [Answer.Failed]⟩
    simp [hpolls] at herror

/-! ## `poll_read` -/

/-- The polls agree with the engine exactly as long as it answers `Done` or FIN
without data. -/
theorem poll_read_agrees_iff (T : Tquic κ) (connId streamId : Nat) (conn : κ)
    (remoteAddr : SocketAddr) (isServer allDataRead : Bool) (s : PollIo κ)
    (hs : Reach (step T (.recv streamId)) (Contract T (.recv streamId))
      (init connId streamId conn remoteAddr isServer allDataRead) s) :
    (s.Agrees ∧ s.EndsAtFin allDataRead ↔
      ∀ a ∈ s.answers, ∃ maxLen,
        a = .read maxLen (.error .done) ∨ a = .read maxLen (.ok ([], true))) ∧
      ∀ t, Reach (step T (.recv streamId)) (Contract T (.recv streamId)) s t →
        t.Agrees → s.Agrees := by
  have hsilent := (silent_reach hs
    (silent_init (.recv streamId) connId streamId conn remoteAddr isServer allDataRead)).1
  have hanswers := agrees_iff_answers hsilent fun _ => Answer.quiet_read
  refine ⟨?_, fun t hst => agrees_of_later hsilent hst⟩
  constructor
  · rintro ⟨hagrees, _⟩
    exact hanswers.mp hagrees
  · intro hdone
    exact ⟨hanswers.mpr hdone, endsAtFin_of_silent hsilent⟩

theorem poll_read_agrees_blocked :
    ∃ s : PollIo Script, s.answers = [.read 1 (.error .done)] ∧ s.Agrees ∧ s.EndsAtFin false := by
  obtain ⟨s, hs, hanswers⟩ :
      ∃ s, Reach (step Tquic.scripted (.recv 0)) (Contract Tquic.scripted (.recv 0))
          (init 0 0 {} .unspecified false false) s ∧
        s.answers = [.read 1 (.error .done)] :=
    ⟨_, ((Reach.refl _).event (.poll [0]) ⟨nofun, fun _ _ => by simp⟩ rfl).event .process
      (contract_process rfl rfl rfl (by trivial)) rfl, rfl⟩
  refine ⟨s, hanswers,
    (poll_read_agrees_iff Tquic.scripted 0 0 {} .unspecified false false s hs).1.mpr ?_⟩
  intro a ha
  rw [hanswers] at ha
  exact ⟨1, Or.inl (List.mem_singleton.mp ha)⟩

/-- The caller polls, is woken after the answer and polls again. -/
def pollAgainRun : List (PollEvent Script) := [.poll [0], .process, .task 0, .poll [0]]

/-- The byte of the first answer goes to a task that drops it, and so does a reset. -/
theorem poll_read_disagrees :
    (¬ ∀ s, Reach (step Tquic.scripted (.recv 0)) (Contract Tquic.scripted (.recv 0))
        (init 0 0 { reads := [.ok ([1], false)] } .unspecified false false) s →
      s.Agrees ∧ s.EndsAtFin false) ∧
    ¬ ∀ s, Reach (step Tquic.scripted (.recv 0)) (Contract Tquic.scripted (.recv 0))
        (init 0 0 { reads := [.error (.streamReset 5)] } .unspecified false false) s →
      s.Agrees ∧ s.EndsAtFin false := by
  constructor
  · intro hall
    obtain ⟨s, hrun, hmoved, hreported, hcontract⟩ :
        ∃ s, run (step Tquic.scripted (.recv 0))
            (init 0 0 { reads := [.ok ([1], false)] } .unspecified false false)
            pollAgainRun = some s ∧ s.moved = [1] ∧ s.reported = [] ∧
          Along (step Tquic.scripted (.recv 0)) (Contract Tquic.scripted (.recv 0))
            (init 0 0 { reads := [.ok ([1], false)] } .unspecified false false) pollAgainRun :=
      ⟨_, rfl, rfl, rfl, ⟨nofun, fun _ _ => by simp⟩,
        contract_process rfl rfl rfl (by exact ⟨by simp, by decide⟩), trivial,
        ⟨fun _ hb => ⟨Option.some.inj hb, rfl⟩, fun _ _ => by simp⟩, trivial⟩
    have hbytes := (hall s (reach_of_along hrun hcontract)).1.bytes
    simp [hmoved, hreported] at hbytes
  · intro hall
    obtain ⟨s, hrun, hanswers, hpolls, hcontract⟩ :
        ∃ s, run (step Tquic.scripted (.recv 0))
            (init 0 0 { reads := [.error (.streamReset 5)] } .unspecified false false)
            pollAgainRun = some s ∧
          s.answers = [.read 1 (.error (.streamReset 5))] ∧
          s.polls = [([0], .pending), ([0], .pending)] ∧
          Along (step Tquic.scripted (.recv 0)) (Contract Tquic.scripted (.recv 0))
            (init 0 0 { reads := [.error (.streamReset 5)] } .unspecified false false)
            pollAgainRun :=
      ⟨_, rfl, rfl, rfl, ⟨nofun, fun _ _ => by simp⟩,
        contract_process rfl rfl rfl (by trivial), trivial,
        ⟨fun _ hb => ⟨Option.some.inj hb, rfl⟩, fun _ _ => by simp⟩, trivial⟩
    have herror := (hall s (reach_of_along hrun hcontract)).1.errors
      ⟨.read 1 (.error (.streamReset 5)), by simp [hanswers], by simp [Answer.Failed]⟩
    simp [hpolls] at herror

end PollIo

end TokioTquic
