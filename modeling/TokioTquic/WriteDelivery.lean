import Mathlib.Data.List.Basic
import TokioTquic.SendStream

/-!
# What `write` and `write_all` hand to the engine

Nothing is assumed of the engine's answers here: a refused or failed request
takes no byte, an accepted one takes the prefix it counts, and a retry offers
the same bytes again.
-/

namespace TokioTquic
set_option autoImplicit false

def acceptedBytes (requests : List (Bytes × WriteAnswer)) : Bytes :=
  requests.flatMap fun q => q.1.take q.2.accepted

@[simp] theorem acceptedBytes_nil : acceptedBytes [] = [] := rfl

@[simp] theorem acceptedBytes_cons (q : Bytes × WriteAnswer) (qs : List (Bytes × WriteAnswer)) :
    acceptedBytes (q :: qs) = q.1.take q.2.accepted ++ acceptedBytes qs := rfl

@[simp] theorem acceptedBytes_append (xs ys : List (Bytes × WriteAnswer)) :
    acceptedBytes (xs ++ ys) = acceptedBytes xs ++ acceptedBytes ys :=
  List.flatMap_append

/-- The prefix of its buffer a `write` reports. -/
def reportedBytes (buf : Bytes) : Except WriteError Nat → Bytes
  | .ok n => buf.take n
  | .error _ => []

namespace WritePass

def Idle (pass : WritePass) : Prop :=
  SendStream.onReply pass.answer.reply = .wait ∧ pass.waitError = none

instance (pass : WritePass) : Decidable pass.Idle :=
  inferInstanceAs (Decidable (_ ∧ _))

inductive Decides (pass : WritePass) : Except WriteError Nat → Prop where
  | reply {result : Except WriteError Nat} :
      SendStream.onReply pass.answer.reply = .ret result → Decides pass result
  | closed {e : WriteError} :
      SendStream.onReply pass.answer.reply = .wait → pass.waitError = some e →
        Decides pass (.error e)

def request (buf : Bytes) (pass : WritePass) : Bytes × WriteAnswer := (buf, pass.answer)

end WritePass

namespace SendStream

theorem onReply_wait {a : WriteAnswer} (h : onReply a.reply = .wait) : a.accepted = 0 := by
  rcases a with ((e | n)) | _ | _
  · rfl
  · cases n with
    | zero => rfl
    | succ n => simp [WriteAnswer.reply, writeReply, onReply] at h
  · rfl
  · rfl

theorem onReply_ok {a : WriteAnswer} {n : Nat} (h : onReply a.reply = .ret (.ok n)) :
    0 < n ∧ a.accepted = n := by
  rcases a with ((e | m)) | _ | _
  · cases e <;> simp [WriteAnswer.reply, writeReply, onReply] at h
  · cases m with
    | zero => simp [WriteAnswer.reply, writeReply, onReply] at h
    | succ m =>
      obtain rfl : m + 1 = n := by simpa [WriteAnswer.reply, writeReply, onReply] using h
      exact ⟨by omega, rfl⟩
  · simp [WriteAnswer.reply, writeReply, onReply] at h
  · simp [WriteAnswer.reply, onReply] at h

theorem onReply_error {a : WriteAnswer} {e : WriteError}
    (h : onReply a.reply = .ret (.error e)) : a.accepted = 0 := by
  rcases a with ((e' | m)) | _ | _
  · rfl
  · cases m with
    | zero => rfl
    | succ m => simp [WriteAnswer.reply, writeReply, onReply] at h
  · rfl
  · rfl

theorem decides_accepted {pass : WritePass} {result : Except WriteError Nat}
    (h : pass.Decides result) (buf : Bytes) :
    buf.take pass.answer.accepted = reportedBytes buf result := by
  cases h with
  | reply h =>
    cases result with
    | ok n => rw [(onReply_ok h).2, reportedBytes]
    | error e => rw [onReply_error h, reportedBytes, List.take_zero]
  | closed h _ => rw [onReply_wait h, reportedBytes, List.take_zero]

theorem decides_pos {pass : WritePass} {n : Nat} (h : pass.Decides (.ok n)) : 0 < n := by
  cases h with
  | reply h => exact (onReply_ok h).1

/-! ## One call of `write` -/

/-- A completed call is a number of idle passes and the pass that decides it. -/
theorem writeLoop_some {buf : Bytes} {passes : List WritePass} {r : WriteRun Nat}
    (h : writeLoop buf passes = some r) :
    ∃ waits pass, passes = waits ++ pass :: r.rest ∧ (∀ p ∈ waits, p.Idle) ∧
      pass.Decides r.result ∧ r.requests = (waits ++ [pass]).map (·.request buf) := by
  induction passes generalizing r with
  | nil => simp [writeLoop] at h
  | cons pass rest ih =>
    unfold writeLoop at h
    split at h
    · rename_i hret
      cases h
      exact ⟨[], pass, rfl, by simp, .reply hret, rfl⟩
    · rename_i hwait
      split at h
      · rename_i e he
        cases h
        exact ⟨[], pass, rfl, by simp, .closed hwait he, rfl⟩
      · rename_i hopen
        obtain ⟨r', hr', rfl⟩ := Option.map_eq_some_iff.mp h
        obtain ⟨waits, last, rfl, hidle, hlast, hreq⟩ := ih hr'
        refine ⟨pass :: waits, last, rfl, ?_, hlast, ?_⟩
        · intro p hp
          rcases List.mem_cons.mp hp with rfl | hp
          · exact ⟨hwait, hopen⟩
          · exact hidle p hp
        · simp [hreq, WritePass.request]

theorem writeLoop_none {buf : Bytes} {passes : List WritePass}
    (h : writeLoop buf passes = none) : ∀ p ∈ passes, p.Idle := by
  induction passes with
  | nil => simp
  | cons pass rest ih =>
    unfold writeLoop at h
    split at h
    · simp at h
    · rename_i hwait
      split at h
      · simp at h
      · rename_i hopen
        intro p hp
        rcases List.mem_cons.mp hp with rfl | hp
        · exact ⟨hwait, hopen⟩
        · exact ih (by simpa using h) p hp

theorem idle_accepted {waits : List WritePass} (h : ∀ p ∈ waits, p.Idle) (buf : Bytes) :
    acceptedBytes (waits.map (·.request buf)) = [] := by
  induction waits with
  | nil => rfl
  | cons p ps ih =>
    have hp := onReply_wait (h p List.mem_cons_self).1
    rw [List.map_cons, acceptedBytes_cons, ih fun q hq => h q (List.mem_cons_of_mem p hq)]
    simp [WritePass.request, hp]

theorem writeLoop_accepted {buf : Bytes} {passes : List WritePass} {r : WriteRun Nat}
    (h : writeLoop buf passes = some r) :
    acceptedBytes r.requests = reportedBytes buf r.result := by
  obtain ⟨waits, pass, _, hidle, hlast, hreq⟩ := writeLoop_some h
  rw [hreq, List.map_append, acceptedBytes_append, idle_accepted hidle]
  simpa [WritePass.request] using decides_accepted hlast buf

theorem writeLoop_requests {buf : Bytes} {passes : List WritePass} {r : WriteRun Nat}
    (h : writeLoop buf passes = some r) {xs ys : List (Bytes × WriteAnswer)}
    {q : Bytes × WriteAnswer} (hq : r.requests = xs ++ q :: ys) :
    q.1 = buf ∧ acceptedBytes xs = [] := by
  obtain ⟨waits, pass, _, hidle, _, hreq⟩ := writeLoop_some h
  have hmem : q ∈ (waits ++ [pass]).map (·.request buf) := by
    rw [← hreq, hq]
    exact List.mem_append_right _ List.mem_cons_self
  obtain ⟨p, -, hp⟩ := List.mem_map.mp hmem
  refine ⟨by rw [← hp, WritePass.request], ?_⟩
  have hbefore : xs <+: waits.map (·.request buf) := by
    rw [hreq, List.map_append, List.map_singleton] at hq
    have hlen := congrArg List.length hq
    simp only [List.length_append, List.length_cons, List.length_nil] at hlen
    exact List.prefix_of_prefix_length_le (List.prefix_append xs (q :: ys)) ⟨_, hq⟩ (by omega)
  obtain ⟨zs, hzs⟩ := hbefore
  have hnil := idle_accepted hidle buf
  rw [← hzs, acceptedBytes_append] at hnil
  exact (List.append_eq_nil_iff.mp hnil).1

/-- The requests are answered by the passes, in their order. -/
def Answered {α : Type} (passes : List WritePass) (r : WriteRun α) : Prop :=
  passes.map (·.answer) = r.requests.map Prod.snd ++ r.rest.map (·.answer)

theorem write_answered {self : SendStream} {buf : Bytes} {passes : List WritePass}
    {r : WriteRun Nat} (h : self.write buf passes = some r) : Answered passes r := by
  unfold write at h
  split at h
  · cases h
    rfl
  · obtain ⟨waits, pass, hpasses, _, _, hreq⟩ := writeLoop_some h
    rw [Answered, hreq, hpasses]
    simp [WritePass.request]

/-! ## One call of `write_all` -/

/-- What a completed `write_all` from `offset` on says about the bytes accepted:
all that were left, or a proper prefix of them; and every request offered what
was left then, which was not nothing. -/
structure WriteAllSpec (left : Bytes) (r : WriteRun Unit) : Prop where
  ok : r.result = .ok () → acceptedBytes r.requests = left
  error : ∀ e, r.result = .error e →
    acceptedBytes r.requests <+: left ∧ acceptedBytes r.requests ≠ left
  asks : ∀ xs q ys, r.requests = xs ++ q :: ys →
    q.1 = left.drop (acceptedBytes xs).length ∧ (acceptedBytes xs).length < left.length

theorem write_accepted {self : SendStream} {buf : Bytes} {passes : List WritePass}
    {r : WriteRun Nat} (h : self.write buf passes = some r) :
    acceptedBytes r.requests = reportedBytes buf r.result := by
  unfold write at h
  split at h
  · cases h
    rfl
  · exact writeLoop_accepted h

theorem write_requests {self : SendStream} {buf : Bytes} {passes : List WritePass}
    {r : WriteRun Nat} (h : self.write buf passes = some r) {xs ys : List (Bytes × WriteAnswer)}
    {q : Bytes × WriteAnswer} (hq : r.requests = xs ++ q :: ys) :
    q.1 = buf ∧ acceptedBytes xs = [] := by
  unfold write at h
  split at h
  · cases h
    simp at hq
  · exact writeLoop_requests h hq

theorem writeAllLoop_spec {self : SendStream} {buf : Bytes} {offset : Nat}
    {passes : List WritePass} {r : WriteRun Unit}
    (h : self.writeAllLoop buf offset passes = some r) :
    WriteAllSpec (buf.drop offset) r := by
  fun_induction writeAllLoop self buf offset passes generalizing r with
  | case1 => simp at h
  | case2 offset passes hlt run hrun n hn ih =>
    obtain ⟨r', hr', rfl⟩ := Option.map_eq_some_iff.mp h
    have spec := ih hr'
    obtain ⟨first, hfirst, hsplit⟩ : ∃ first, acceptedBytes run.requests = first ∧
        buf.drop offset = first ++ buf.drop (offset + n) := by
      refine ⟨(buf.drop offset).take n, ?_, ?_⟩
      · rw [write_accepted hrun, hn, reportedBytes]
      · rw [← List.drop_drop, List.take_append_drop]
    have hleft : 0 < (buf.drop offset).length := by
      rw [List.length_drop]
      omega
    rw [hsplit] at hleft ⊢
    refine ⟨?_, ?_, ?_⟩
    · intro hok
      rw [acceptedBytes_append, hfirst, spec.ok hok]
    · intro e he
      obtain ⟨⟨tail, htail⟩, hne⟩ := spec.error e he
      rw [acceptedBytes_append, hfirst]
      refine ⟨⟨tail, by rw [List.append_assoc, htail]⟩, fun heq => ?_⟩
      exact hne (List.append_cancel_left heq)
    · intro xs q ys hq
      have hlater : ∀ zs, r'.requests = zs ++ q :: ys →
          q.1 = (first ++ buf.drop (offset + n)).drop
              (acceptedBytes (run.requests ++ zs)).length ∧
            (acceptedBytes (run.requests ++ zs)).length <
              (first ++ buf.drop (offset + n)).length := by
        intro zs hzs
        obtain ⟨hoffer, hlt'⟩ := spec.asks zs q ys hzs
        rw [acceptedBytes_append, hfirst]
        constructor
        · rw [hoffer, List.length_append, List.drop_length_add_append]
        · simp only [List.length_append]
          omega
      rcases List.append_eq_append_iff.mp hq with ⟨zs, rfl, hzs⟩ | ⟨zs, hzs, hq'⟩
      · exact hlater zs hzs
      · cases zs with
        | nil =>
          have hxs : run.requests = xs := by simpa using hzs
          simpa [hxs] using hlater [] (by simpa using hq'.symm)
        | cons z zs =>
          obtain ⟨rfl, _⟩ := List.cons.inj hq'
          obtain ⟨hoffer, hnone⟩ := write_requests hrun hzs
          rw [hnone, ← hsplit]
          rw [← hsplit] at hleft
          exact ⟨hoffer, hleft⟩
  | case3 offset passes hlt run hrun e he =>
    cases h
    have hnil : acceptedBytes run.requests = [] := by
      rw [write_accepted hrun, he, reportedBytes]
    refine ⟨by simp, ?_, ?_⟩
    · intro _ _
      rw [hnil]
      refine ⟨List.nil_prefix, fun heq => ?_⟩
      have hlen := congrArg List.length heq
      simp only [List.length_nil, List.length_drop] at hlen
      omega
    · intro xs q ys hq
      obtain ⟨hoffer, hnone⟩ := write_requests hrun hq
      rw [hnone]
      refine ⟨hoffer, ?_⟩
      simp only [List.length_nil, List.length_drop]
      omega
  | case4 offset passes hle =>
    cases h
    exact ⟨fun _ => by simp [Nat.le_of_not_lt hle], by simp, by simp⟩

theorem writeAllLoop_write {self : SendStream} {buf : Bytes} {offset : Nat}
    {passes : List WritePass} (hlt : offset < buf.length) :
    self.writeAllLoop buf offset passes =
      (self.write (buf.drop offset) passes).bind fun run =>
        match run.result with
        | .ok n =>
          (self.writeAllLoop buf (offset + n) run.rest).map
            fun r => { r with requests := run.requests ++ r.requests }
        | .error e => some ⟨.error e, run.requests, run.rest⟩ := by
  rw [writeAllLoop, if_pos hlt]
  split
  · rename_i hnone
    rw [hnone]
    rfl
  · rename_i run hrun
    rw [hrun]
    split
    · rename_i n hn
      simp [hn]
    · rename_i e hn
      simp [hn]

theorem writeAllLoop_answered {self : SendStream} {buf : Bytes} {offset : Nat}
    {passes : List WritePass} {r : WriteRun Unit}
    (h : self.writeAllLoop buf offset passes = some r) : Answered passes r := by
  fun_induction writeAllLoop self buf offset passes generalizing r with
  | case1 => simp at h
  | case2 offset passes hlt run hrun n hn ih =>
    obtain ⟨r', hr', rfl⟩ := Option.map_eq_some_iff.mp h
    have hfirst : Answered passes run := write_answered hrun
    have hlater : Answered run.rest r' := ih hr'
    unfold Answered at hfirst hlater ⊢
    rw [hfirst, hlater, List.map_append, List.append_assoc]
  | case3 offset passes hlt run hrun e he =>
    cases h
    exact write_answered hrun
  | case4 =>
    cases h
    rfl

/-! ## Progress -/

/-- The passes that do more than send the loop round again. -/
def busy (passes : List WritePass) : Nat := passes.countP (¬ ·.Idle)

theorem busy_idle {passes : List WritePass} (h : ∀ p ∈ passes, p.Idle) : busy passes = 0 := by
  rw [busy, List.countP_eq_zero]
  simpa using h

theorem write_none {self : SendStream} {buf : Bytes} {passes : List WritePass}
    (h : self.write buf passes = none) : busy passes = 0 := by
  unfold write at h
  split at h
  · simp at h
  · exact busy_idle (writeLoop_none h)

theorem write_busy {self : SendStream} {buf : Bytes} {passes : List WritePass}
    {r : WriteRun Nat} (h : self.write buf passes = some r) :
    busy passes ≤ busy r.rest + 1 := by
  unfold write at h
  split at h
  · cases h
    simp
  · obtain ⟨waits, pass, rfl, hidle, _, _⟩ := writeLoop_some h
    have hzero := busy_idle hidle
    unfold busy at hzero ⊢
    rw [List.countP_append, hzero, List.countP_cons]
    split <;> omega

theorem write_pos {self : SendStream} {buf : Bytes} {passes : List WritePass}
    {r : WriteRun Nat} {n : Nat} (h : self.write buf passes = some r) (hn : r.result = .ok n) :
    0 < n := by
  unfold write at h
  split at h
  · cases h
    simp at hn
  · obtain ⟨_, _, _, _, hlast, _⟩ := writeLoop_some h
    exact decides_pos (hn ▸ hlast)

theorem writeAllLoop_none {self : SendStream} {buf : Bytes} {offset : Nat}
    {passes : List WritePass} (h : self.writeAllLoop buf offset passes = none) :
    busy passes < buf.length - offset := by
  fun_induction writeAllLoop self buf offset passes with
  | case1 offset passes hlt hwrite =>
    have hzero := write_none hwrite
    omega
  | case2 offset passes hlt run hrun n hn ih =>
    have hlater := ih (by simpa using h)
    have hused := write_busy hrun
    have hpos := write_pos hrun hn
    omega
  | case3 => simp at h
  | case4 => simp at h

theorem writeAllLoop_busy {self : SendStream} {buf : Bytes} {offset : Nat}
    {passes : List WritePass} {r : WriteRun Unit}
    (h : self.writeAllLoop buf offset passes = some r) :
    busy passes ≤ busy r.rest + (buf.length - offset) := by
  fun_induction writeAllLoop self buf offset passes generalizing r with
  | case1 => simp at h
  | case2 offset passes hlt run hrun n hn ih =>
    obtain ⟨r', hr', rfl⟩ := Option.map_eq_some_iff.mp h
    have hlater := ih hr'
    have hused := write_busy hrun
    have hpos := write_pos hrun hn
    simp only at hlater ⊢
    omega
  | case3 offset passes hlt run hrun e he =>
    cases h
    have hused := write_busy hrun
    simp only
    omega
  | case4 =>
    cases h
    simp

end SendStream

/-! ## Sequences of calls -/

inductive WriteCall where
  | write (buf : Bytes)
  | writeAll (buf : Bytes)

inductive WriteOutcome where
  | write (buf : Bytes) (run : WriteRun Nat)
  | writeAll (buf : Bytes) (run : WriteRun Unit)

namespace WriteOutcome

def call : WriteOutcome → WriteCall
  | .write buf _ => .write buf
  | .writeAll buf _ => .writeAll buf

def requests : WriteOutcome → List (Bytes × WriteAnswer)
  | .write _ run => run.requests
  | .writeAll _ run => run.requests

def rest : WriteOutcome → List WritePass
  | .write _ run => run.rest
  | .writeAll _ run => run.rest

/-- What the caller may conclude was sent: the prefix `write` reports, the
buffer of a `write_all` that succeeds, the accepted part of one that fails. -/
def sent : WriteOutcome → Bytes
  | .write buf run => reportedBytes buf run.result
  | .writeAll buf ⟨.ok (), _, _⟩ => buf
  | .writeAll _ ⟨.error _, requests, _⟩ => acceptedBytes requests

/-- `write` offers its buffer each time and never reports that nothing was sent. `write_all`
succeeds exactly when all of its buffer was accepted, a prefix of it is accepted in any case,
each request offers what is left, and no request follows the last byte. -/
def Exact : WriteOutcome → Prop
  | .write buf run => (∀ n, run.result = .ok n → 0 < n) ∧ ∀ q ∈ run.requests, q.1 = buf
  | .writeAll buf run =>
    (run.result = .ok () ↔ acceptedBytes run.requests = buf) ∧
    acceptedBytes run.requests <+: buf ∧
    ∀ xs q ys, run.requests = xs ++ q :: ys →
      q.1 = buf.drop (acceptedBytes xs).length ∧ acceptedBytes xs ≠ buf

end WriteOutcome

namespace SendStream

def runCall (self : SendStream) (passes : List WritePass) : WriteCall → Option WriteOutcome
  | .write buf => (self.write buf passes).map (.write buf)
  | .writeAll buf => (self.writeAll buf passes).map (.writeAll buf)

def runCalls (self : SendStream) : List WriteCall → List WritePass → Option (List WriteOutcome)
  | [], _ => some []
  | call :: calls, passes =>
    (self.runCall passes call).bind fun o => (self.runCalls calls o.rest).map (o :: ·)

/-- The number of passes that are certain to complete a call. -/
def work : WriteCall → Nat
  | .write _ => 1
  | .writeAll buf => buf.length

theorem runCall_sent {self : SendStream} {passes : List WritePass} {call : WriteCall}
    {o : WriteOutcome} (h : self.runCall passes call = some o) :
    acceptedBytes o.requests = o.sent ∧ o.Exact := by
  cases call with
  | write buf =>
    obtain ⟨run, hrun, rfl⟩ := Option.map_eq_some_iff.mp h
    refine ⟨write_accepted hrun, fun n hn => write_pos hrun hn, fun q hq => ?_⟩
    obtain ⟨xs, ys, hsplit⟩ := List.append_of_mem hq
    exact (write_requests hrun hsplit).1
  | writeAll buf =>
    obtain ⟨run, hrun, rfl⟩ := Option.map_eq_some_iff.mp h
    have spec : WriteAllSpec buf run := by simpa using writeAllLoop_spec hrun
    have hasks : ∀ xs q ys, run.requests = xs ++ q :: ys →
        q.1 = buf.drop (acceptedBytes xs).length ∧ acceptedBytes xs ≠ buf := by
      intro xs q ys hq
      obtain ⟨hoffer, hlt⟩ := spec.asks xs q ys hq
      refine ⟨hoffer, fun heq => ?_⟩
      rw [heq] at hlt
      omega
    rcases run with ⟨e | ⟨⟩, requests, rest⟩
    · obtain ⟨hpre, hne⟩ := spec.error e rfl
      exact ⟨rfl, ⟨by simp, fun heq => absurd heq hne⟩, hpre, hasks⟩
    · have hall := spec.ok rfl
      simp only at hall
      exact ⟨hall, ⟨fun _ => hall, fun _ => rfl⟩, by simp [hall], hasks⟩

theorem runCall_call {self : SendStream} {passes : List WritePass} {call : WriteCall}
    {o : WriteOutcome} (h : self.runCall passes call = some o) :
    o.call = call ∧
      passes.map (·.answer) = o.requests.map Prod.snd ++ o.rest.map (·.answer) := by
  cases call with
  | write buf =>
    obtain ⟨run, hrun, rfl⟩ := Option.map_eq_some_iff.mp h
    exact ⟨rfl, write_answered hrun⟩
  | writeAll buf =>
    obtain ⟨run, hrun, rfl⟩ := Option.map_eq_some_iff.mp h
    exact ⟨rfl, writeAllLoop_answered hrun⟩

theorem runCalls_calls {self : SendStream} {calls : List WriteCall} {passes : List WritePass}
    {outcomes : List WriteOutcome} (h : self.runCalls calls passes = some outcomes) :
    outcomes.map (·.call) = calls ∧
      (outcomes.flatMap (·.requests)).map Prod.snd <+: passes.map (·.answer) ∧
      ∀ o ∈ outcomes, acceptedBytes o.requests = o.sent ∧ o.Exact := by
  induction calls generalizing passes outcomes with
  | nil =>
    obtain rfl : [] = outcomes := by simpa [runCalls] using h
    simp
  | cons call calls ih =>
    obtain ⟨o, ho, hrest⟩ := Option.bind_eq_some_iff.mp h
    obtain ⟨os, hos, rfl⟩ := Option.map_eq_some_iff.mp hrest
    obtain ⟨hcall, hanswers⟩ := runCall_call ho
    obtain ⟨hcalls, hlater, hall⟩ := ih hos
    refine ⟨by rw [List.map_cons, hcall, hcalls], ?_, ?_⟩
    · rw [List.flatMap_cons, List.map_append, hanswers]
      exact (List.prefix_append_right_inj _).mpr hlater
    · intro o' ho'
      rcases List.mem_cons.mp ho' with rfl | ho'
      · exact runCall_sent ho
      · exact hall o' ho'

theorem runCall_busy {self : SendStream} {passes : List WritePass} {call : WriteCall}
    (h : work call ≤ busy passes) :
    ∃ o, self.runCall passes call = some o ∧ busy passes ≤ busy o.rest + work call := by
  cases call with
  | write buf =>
    cases hrun : self.write buf passes with
    | none =>
      have hzero := write_none hrun
      simp only [work] at h
      omega
    | some run => exact ⟨.write buf run, by simp [runCall, hrun], write_busy hrun⟩
  | writeAll buf =>
    cases hrun : self.writeAll buf passes with
    | none =>
      have hlt := writeAllLoop_none hrun
      simp only [work] at h
      omega
    | some run => exact ⟨.writeAll buf run, by simp [runCall, hrun], writeAllLoop_busy hrun⟩

/-- Lossless writing: the outcomes are those of the calls, in their order, on the engine's
answers, in theirs; after every call the engine has accepted exactly what the calls say was
sent; and the calls complete once enough passes are not idle. -/
theorem write_calls_lossless (self : SendStream) (calls : List WriteCall)
    (passes : List WritePass) :
    (∀ outcomes, self.runCalls calls passes = some outcomes →
      outcomes.map (·.call) = calls ∧
      (outcomes.flatMap (·.requests)).map Prod.snd <+: passes.map (·.answer) ∧
      (∀ k, acceptedBytes ((outcomes.take k).flatMap (·.requests)) =
        (outcomes.take k).flatMap (·.sent)) ∧
      ∀ o ∈ outcomes, o.Exact) ∧
    ((calls.map work).sum ≤ busy passes →
      ∃ outcomes, self.runCalls calls passes = some outcomes) := by
  constructor
  · intro outcomes h
    obtain ⟨hcalls, hanswers, hall⟩ := runCalls_calls h
    refine ⟨hcalls, hanswers, fun k => ?_, fun o ho => (hall o ho).2⟩
    have hk : ∀ o ∈ outcomes.take k, acceptedBytes o.requests = o.sent :=
      fun o ho => (hall o (List.mem_of_mem_take ho)).1
    unfold acceptedBytes at hk ⊢
    rw [List.flatMap_assoc]
    exact List.flatMap_congr hk
  · intro h
    induction calls generalizing passes with
    | nil => exact ⟨[], rfl⟩
    | cons call calls ih =>
      simp only [List.map_cons, List.sum_cons] at h
      obtain ⟨o, ho, hused⟩ := @runCall_busy self passes call (by omega)
      obtain ⟨os, hos⟩ := ih o.rest (by omega)
      exact ⟨o :: os, by simp [runCalls, ho, hos]⟩

/-- Two of three bytes are accepted, then there is no room, then the third and one of the two
bytes of a `write` go out. -/
def shortAccepts : List WritePass :=
  [.ok 2, .error .done, .ok 1, .error .done, .ok 1].map fun result => ⟨.engine result, none⟩

theorem write_calls_lossless_short :
    ∃ outcomes,
      runCalls ⟨0, 4, false⟩ [.writeAll [1, 2, 3], .write [4, 5]] shortAccepts = some outcomes ∧
      outcomes.map (·.call) = [.writeAll [1, 2, 3], .write [4, 5]] ∧
      outcomes.map (·.sent) = [[1, 2, 3], [4]] ∧
      acceptedBytes (outcomes.flatMap (·.requests)) = [1, 2, 3, 4] ∧
      ∀ o ∈ outcomes, o.Exact := by
  have hall : writeAll ⟨0, 4, false⟩ [1, 2, 3] shortAccepts = some ⟨.ok (),
      [([1, 2, 3], .engine (.ok 2)), ([3], .engine (.error .done)), ([3], .engine (.ok 1))],
      shortAccepts.drop 3⟩ := by
    have hlast : writeAllLoop ⟨0, 4, false⟩ [1, 2, 3] 3 (shortAccepts.drop 3) =
        some ⟨.ok (), [], shortAccepts.drop 3⟩ := by
      rw [writeAllLoop, if_neg (by decide)]
    have hthird : writeAllLoop ⟨0, 4, false⟩ [1, 2, 3] 2 (shortAccepts.drop 1) =
        some ⟨.ok (), [([3], .engine (.error .done)), ([3], .engine (.ok 1))],
          shortAccepts.drop 3⟩ := by
      rw [writeAllLoop_write (by decide)]
      exact congrArg (Option.map _) hlast
    rw [writeAll, writeAllLoop_write (by decide)]
    exact congrArg (Option.map _) hthird
  have hruns : runCalls ⟨0, 4, false⟩ [.writeAll [1, 2, 3], .write [4, 5]] shortAccepts =
      some [.writeAll [1, 2, 3] ⟨.ok (),
          [([1, 2, 3], .engine (.ok 2)), ([3], .engine (.error .done)), ([3], .engine (.ok 1))],
          shortAccepts.drop 3⟩,
        .write [4, 5]
          ⟨.ok 1, [([4, 5], .engine (.error .done)), ([4, 5], .engine (.ok 1))], []⟩] := by
    simp only [runCalls, runCall, hall]
    rfl
  obtain ⟨hcalls, -, htaken, hexact⟩ :=
    (write_calls_lossless ⟨0, 4, false⟩ [.writeAll [1, 2, 3], .write [4, 5]] shortAccepts).1 _ hruns
  exact ⟨_, hruns, hcalls, rfl, htaken 2, hexact⟩

end SendStream

end TokioTquic
