import TokioTquic.ReadToEnd
import TokioTquic.StreamLife
import TokioTquic.WriteDelivery

/-!
# Calls as sequential programs

A pass of the loop in `read` or `write` gets an answer, and if it has to wait, perhaps
the loss of the connection. The laws of `SequentialHandle` say what one pass does to a
call that is under way, whichever of the calls it is.
-/

namespace TokioTquic
set_option autoImplicit false

variable {β α π : Type}

/-- The answer to the request of a pass, and the loss its wait ended with. -/
structure HandlePass (α : Type) where
  answer : α
  lost : Option ConnectionError

/-- `read_exact` and `write_all` do not start a `read` or `write` of nothing. -/
def Caller.Ready : Caller → Bytes → Prop
  | .readExact _, buf => buf ≠ []
  | .writeAll, buf => buf ≠ []
  | _, _ => True

theorem Caller.onCompletion_ready {caller next : Caller} {c : Completion} {buf : Bytes}
    (h : caller.onCompletion c = some (.again next buf)) : next.Ready buf := by
  unfold onCompletion at h
  split at h
  case h_1 | h_4 => cases h
  case h_6 => cases h
  case h_2 result buf' =>
    rcases result with e | _ | n
    · cases h
    · cases h
    · simp only at h
      split at h <;> cases h
      exact RecvStream.slice_ne_nil ‹_›
  case h_3 result buf' =>
    rcases result with e | _ | n
    · cases h
    · cases h
    · simp only at h
      split at h <;> cases h
      trivial
  case h_5 result buf' =>
    rcases result with e | n
    · cases h
    · simp only at h
      split at h <;> cases h
      exact RecvStream.slice_ne_nil ‹_›

theorem Call.start_ready {c : Call} {caller : Caller} {buf : Bytes}
    (h : c.start = some (caller, buf)) : caller.Ready buf := by
  cases c with
  | read _ | readToEnd _ | write _ =>
    cases h
    trivial
  | readExact buf' | writeAll buf' =>
    simp only [start] at h
    split at h <;> cases h
    assumption

/-- What a call does once its `read` or `write` is complete: it goes on, or returns. -/
def Caller.proceed (resume : β → Caller → Bytes → List π → Option (Outcome × β × List π))
    (caller : Caller) (c : Completion) (self : β) (rest : List π) :
    Option (Outcome × β × List π) :=
  match caller.onCompletion c with
  | some (.again caller buf) => resume self caller buf rest
  | some o => some (o, self, rest)
  | none => none

/-- `loop` is the request loop of one `read` or `write`, `resume` the rest of a call
whose next `read` or `write` has not looked at its handle yet. `call` is all of it. -/
class SequentialHandle (β : Type) (α π : outParam Type) extends StreamHandle β α where
  pass : HandlePass α → π
  loop : β → Bytes → List π → Option (Completion × β × List π)
  resume : β → Caller → Bytes → List π → Option (Outcome × β × List π)
  call : β → Call → List π → Option (Outcome × β × List π)
  half_lost : ∀ self self' buf e,
    (half self).connectionLost buf e = (half self').connectionLost buf e
  loop_ret : ∀ {self self' buf a c} lost rest, onAnswer self buf a = (self', .ret c) →
    loop self buf (pass ⟨a, lost⟩ :: rest) = some (c, self', rest)
  loop_lost : ∀ {self self' buf a} e rest, onAnswer self buf a = (self', .wait) →
    loop self buf (pass ⟨a, some e⟩ :: rest) =
      some ((half self').connectionLost buf e, self', rest)
  loop_wait : ∀ {self self' buf a} rest, onAnswer self buf a = (self', .wait) →
    loop self buf (pass ⟨a, none⟩ :: rest) = loop self' buf rest
  resume_ended : ∀ {self caller buf} passes, ended self = true → caller.Ready buf →
    resume self caller buf passes = caller.proceed resume (atEnd buf) self passes
  resume_loop : ∀ {self caller buf} passes, ended self = false → caller.Ready buf →
    resume self caller buf passes = (loop self buf passes).bind fun (c, self, rest) =>
      caller.proceed resume c self rest
  call_start : ∀ {self c caller buf} passes, c.on (half self) = true →
    c.start = some (caller, buf) → call self c passes = resume self caller buf passes
  call_idle : ∀ {self c o} passes, c.on (half self) = true → c.idle = some o →
    call self c passes = some (o, self, passes)

/-! ## `RecvStream` -/

namespace RecvStream

def passOf (p : HandlePass ReadAnswer) : ReadPass :=
  ⟨p.answer, p.lost.map .connectionLost⟩

def loop (self : RecvStream) (buf : Bytes) (passes : List ReadPass) :
    Option (Completion × RecvStream × List ReadPass) :=
  (self.readLoop buf passes).map fun run => (.read run.result run.buf, run.self, run.rest)

def resume (self : RecvStream) (caller : Caller) (buf : Bytes) (passes : List ReadPass) :
    Option (Outcome × RecvStream × List ReadPass) :=
  match caller with
  | .read => (self.read buf passes).map fun run => (.read run.result, run.self, run.rest)
  | .readExact filled =>
    (self.readExactLoop (filled ++ buf) filled.length passes).map fun run =>
      (.readExact run.result, run.self, run.rest)
  | .readToEnd data sizeLimit =>
    (self.readToEndLoop data buf sizeLimit passes).map fun run =>
      (.readToEnd run.result, run.self, run.rest)
  | _ => none

def call (self : RecvStream) (c : Call) (passes : List ReadPass) :
    Option (Outcome × RecvStream × List ReadPass) :=
  match c with
  | .read buf => (self.read buf passes).map fun run => (.read run.result, run.self, run.rest)
  | .readExact buf =>
    (self.readExact buf passes).map fun run => (.readExact run.result, run.self, run.rest)
  | .readToEnd sizeLimit =>
    (self.readToEnd sizeLimit passes).map fun run => (.readToEnd run.result, run.self, run.rest)
  | _ => none

theorem resume_read {self : RecvStream} {caller : Caller} {buf : Bytes}
    (passes : List ReadPass) (hready : caller.Ready buf) :
    self.resume caller buf passes = (self.read buf passes).bind fun run =>
      caller.proceed resume (.read run.result run.buf) run.self run.rest := by
  cases caller with
  | read =>
    simp only [resume, Caller.proceed, Caller.onCompletion]
    cases self.read buf passes <;> rfl
  | write | writeAll =>
    simp only [resume, Caller.proceed, Caller.onCompletion]
    cases self.read buf passes <;> rfl
  | readExact filled =>
    have hlt : filled.length < (filled ++ buf).length := by
      have hpos := List.length_pos_iff.mpr hready
      simp only [List.length_append]
      omega
    simp only [resume]
    rw [readExactLoop, if_pos hlt]
    simp only [List.take_left]
    split
    · rename_i hnone
      rw [List.drop_left] at hnone
      rw [hnone]
      rfl
    · rename_i run hrun
      rw [List.drop_left] at hrun
      rw [hrun]
      split
      · rename_i n hn
        simp only [Caller.proceed, Caller.onCompletion, hn, Option.bind_some, Option.map_map]
        by_cases hmore : n < run.buf.length
        · have htake : (filled ++ run.buf.take n).length = filled.length + n := by
            simp only [List.length_append, List.length_take]
            omega
          rw [if_pos hmore]
          simp only [resume, htake, List.append_assoc, List.take_append_drop]
          rfl
        · rw [if_neg hmore, readExactLoop_full]
          · rfl
          · simp only [List.length_append]
            omega
      · rename_i hn
        simp [Caller.proceed, Caller.onCompletion, hn]
      · rename_i e hn
        simp [Caller.proceed, Caller.onCompletion, hn]
  | readToEnd data sizeLimit =>
    simp only [resume]
    rw [readToEndLoop]
    split
    · rename_i hnone
      rw [hnone]
      rfl
    · rename_i run hrun
      rw [hrun]
      split
      · rename_i n hn
        simp only [Caller.proceed, Caller.onCompletion, hn, Option.bind_some]
        split
        · rfl
        · simp only [resume, Option.map_map]
          rfl
      · rename_i hn
        simp [Caller.proceed, Caller.onCompletion, hn]
      · rename_i e hn
        simp [Caller.proceed, Caller.onCompletion, hn]

theorem onReply_wait_eq {self self' : RecvStream} {buf buf' : Bytes}
    {reply : Option (Except ReadError (Bytes × Bool))}
    (h : self.onReply buf reply = (self', buf', .wait)) : self' = self ∧ buf' = buf := by
  rcases reply with _ | e | ⟨data, fin⟩
  · simp [onReply] at h
  · simp [onReply] at h
  · cases fin with
    | true => simp [onReply] at h
    | false =>
      by_cases hdata : data.isEmpty
      · simp only [onReply, hdata, Bool.not_false, Bool.and_true, if_true, Prod.mk.injEq] at h
        exact ⟨h.1.symm, h.2.1.symm⟩
      · simp [onReply, hdata] at h

theorem onAnswer_ret {self self' : RecvStream} {buf : Bytes} {a : ReadAnswer} {c : Completion}
    (h : StreamHandle.onAnswer self buf a = (self', .ret c)) :
    ∃ buf' result, self.onReply buf (a.reply buf.length) = (self', buf', .ret result) ∧
      c = .read result buf' := by
  simp only [StreamHandle.onAnswer, Prod.mk.injEq] at h
  obtain ⟨hself, hpass⟩ := h
  rcases hr : self.onReply buf (a.reply buf.length) with ⟨s, b, pass⟩
  rw [hr] at hself hpass
  cases pass with
  | wait => cases hpass
  | ret result =>
    cases hself
    cases hpass
    exact ⟨b, result, rfl, rfl⟩

theorem onAnswer_wait {self self' : RecvStream} {buf : Bytes} {a : ReadAnswer}
    (h : StreamHandle.onAnswer self buf a = (self', .wait)) :
    self' = self ∧ self.onReply buf (a.reply buf.length) = (self, buf, .wait) := by
  simp only [StreamHandle.onAnswer, Prod.mk.injEq] at h
  obtain ⟨hself, hpass⟩ := h
  rcases hr : self.onReply buf (a.reply buf.length) with ⟨s, b, pass⟩
  rw [hr] at hself hpass
  obtain rfl := Pass.map_wait hpass
  obtain ⟨rfl, rfl⟩ := onReply_wait_eq hr
  exact ⟨hself.symm, rfl⟩

instance : SequentialHandle RecvStream ReadAnswer ReadPass where
  pass := passOf
  loop := loop
  resume := resume
  half_lost _ _ _ _ := rfl
  loop_ret lost rest h := by
    obtain ⟨buf', result, hr, rfl⟩ := onAnswer_ret h
    simp [loop, passOf, readLoop, hr]
  loop_lost e rest h := by
    obtain ⟨rfl, hr⟩ := onAnswer_wait h
    simp [loop, passOf, readLoop, hr, StreamHandle.half, Half.connectionLost]
  loop_wait {self self' buf a} rest h := by
    obtain ⟨rfl, hr⟩ := onAnswer_wait h
    simp only [loop, passOf, readLoop, hr, Option.map_none, Option.map_map]
    rfl
  resume_ended {self _ _} passes h hready := by
    have hend : self.allDataRead = true := h
    rw [resume_read passes hready, read, if_pos hend]
    rfl
  resume_loop {self _ buf} passes h hready := by
    have hopen : self.allDataRead = false := h
    rw [resume_read passes hready, read, if_neg (by simp [hopen]), loop]
    cases self.readLoop buf passes <;> rfl
  call := call
  call_start {self c caller buf} passes hon hstart := by
    cases c with
    | read _ | readToEnd _ =>
      cases hstart
      rfl
    | readExact buf =>
      simp only [Call.start] at hstart
      split at hstart <;> cases hstart
      rfl
    | write _ | writeAll _ => cases hon
  call_idle {self c o} passes hon hidle := by
    unfold Call.idle at hidle
    split at hidle <;> cases hidle
    · simp [call, readExact, readExactLoop]
    · cases hon

end RecvStream

/-! ## `SendStream` -/

namespace SendStream

def passOf (p : HandlePass WriteAnswer) : WritePass :=
  ⟨p.answer, p.lost.map .connectionLost⟩

def loop (self : SendStream) (buf : Bytes) (passes : List WritePass) :
    Option (Completion × SendStream × List WritePass) :=
  (writeLoop buf passes).map fun run => (.write run.result buf, self, run.rest)

def resume (self : SendStream) (caller : Caller) (buf : Bytes) (passes : List WritePass) :
    Option (Outcome × SendStream × List WritePass) :=
  match caller with
  | .write => (self.write buf passes).map fun run => (.write run.result, self, run.rest)
  | .writeAll => (self.writeAll buf passes).map fun run => (.writeAll run.result, self, run.rest)
  | _ => none

def call (self : SendStream) (c : Call) (passes : List WritePass) :
    Option (Outcome × SendStream × List WritePass) :=
  match c with
  | .write buf => (self.write buf passes).map fun run => (.write run.result, self, run.rest)
  | .writeAll buf => (self.writeAll buf passes).map fun run => (.writeAll run.result, self, run.rest)
  | _ => none

theorem writeAllLoop_drop {self : SendStream} {buf : Bytes} {k offset : Nat}
    {passes : List WritePass} (hk : k ≤ offset) :
    self.writeAllLoop buf offset passes =
      self.writeAllLoop (buf.drop k) (offset - k) passes := by
  have hdrop : ∀ n, k ≤ n → (buf.drop k).drop (n - k) = buf.drop n := by
    intro n hn
    rw [List.drop_drop, Nat.add_sub_cancel' hn]
  fun_induction writeAllLoop self buf offset passes with
  | case1 offset passes hlt hrun =>
    have hlt' : offset - k < (buf.drop k).length := by
      simp only [List.length_drop]
      omega
    rw [writeAllLoop_write hlt', hdrop offset hk, hrun]
    rfl
  | case2 offset passes hlt run hrun n hn ih =>
    have hlt' : offset - k < (buf.drop k).length := by
      simp only [List.length_drop]
      omega
    have hnext : offset - k + n = offset + n - k := by omega
    rw [ih (by omega), writeAllLoop_write hlt', hdrop offset hk, hrun]
    simp only [Option.bind_some, hn, hnext]
  | case3 offset passes hlt run hrun e he =>
    have hlt' : offset - k < (buf.drop k).length := by
      simp only [List.length_drop]
      omega
    rw [writeAllLoop_write hlt', hdrop offset hk, hrun]
    simp only [Option.bind_some, he]
  | case4 offset passes hge =>
    rw [writeAllLoop, if_neg (by simp only [List.length_drop]; omega)]

theorem resume_write {self : SendStream} {caller : Caller} {buf : Bytes}
    (passes : List WritePass) (hready : caller.Ready buf) :
    self.resume caller buf passes = (self.write buf passes).bind fun run =>
      caller.proceed resume (.write run.result buf) self run.rest := by
  cases caller with
  | read | readExact _ | readToEnd _ _ =>
    simp only [resume, Caller.proceed, Caller.onCompletion]
    cases self.write buf passes <;> rfl
  | write =>
    simp only [resume, Caller.proceed, Caller.onCompletion]
    cases self.write buf passes <;> rfl
  | writeAll =>
    simp only [resume, writeAll]
    rw [writeAllLoop_write (List.length_pos_iff.mpr hready), List.drop_zero]
    cases self.write buf passes with
    | none => rfl
    | some run =>
      cases hn : run.result with
      | error e => simp [Caller.proceed, Caller.onCompletion, hn]
      | ok n =>
        simp only [Caller.proceed, Caller.onCompletion, hn, Option.bind_some, Option.map_map,
          Nat.zero_add]
        by_cases hmore : n < buf.length
        · rw [if_pos hmore, writeAllLoop_drop (Nat.le_refl n), Nat.sub_self]
          rfl
        · rw [if_neg hmore, writeAllLoop, if_neg hmore]
          rfl

theorem onAnswer_ret {self self' : SendStream} {buf : Bytes} {a : WriteAnswer} {c : Completion}
    (h : StreamHandle.onAnswer self buf a = (self', .ret c)) :
    self' = self ∧ ∃ result, onReply a.reply = .ret result ∧ c = .write result buf := by
  simp only [StreamHandle.onAnswer, Prod.mk.injEq] at h
  obtain ⟨hself, hpass⟩ := h
  cases hr : onReply a.reply with
  | wait =>
    rw [hr] at hpass
    cases hpass
  | ret result =>
    rw [hr] at hpass
    cases hpass
    exact ⟨hself.symm, result, rfl, rfl⟩

theorem onAnswer_wait {self self' : SendStream} {buf : Bytes} {a : WriteAnswer}
    (h : StreamHandle.onAnswer self buf a = (self', .wait)) :
    self' = self ∧ onReply a.reply = .wait := by
  simp only [StreamHandle.onAnswer, Prod.mk.injEq] at h
  exact ⟨h.1.symm, Pass.map_wait h.2⟩

instance : SequentialHandle SendStream WriteAnswer WritePass where
  pass := passOf
  loop := loop
  resume := resume
  half_lost _ _ _ _ := rfl
  loop_ret lost rest h := by
    obtain ⟨rfl, result, hr, rfl⟩ := onAnswer_ret h
    simp [loop, passOf, writeLoop, hr]
  loop_lost e rest h := by
    obtain ⟨rfl, hr⟩ := onAnswer_wait h
    simp [loop, passOf, writeLoop, hr, StreamHandle.half, Half.connectionLost]
  loop_wait {self self' buf a} rest h := by
    obtain ⟨rfl, hr⟩ := onAnswer_wait h
    simp only [loop, passOf, writeLoop, hr, Option.map_none, Option.map_map]
    rfl
  resume_ended {self _ _} passes h hready := by
    have hend : self.finished = true := h
    rw [resume_write passes hready, write, if_pos hend]
    rfl
  resume_loop {self _ buf} passes h hready := by
    have hopen : self.finished = false := h
    rw [resume_write passes hready, write, if_neg (by simp [hopen]), loop]
    cases writeLoop buf passes <;> rfl
  call := call
  call_start {self c caller buf} passes hon hstart := by
    cases c with
    | write _ =>
      cases hstart
      rfl
    | writeAll buf =>
      simp only [Call.start] at hstart
      split at hstart <;> cases hstart
      rfl
    | read _ | readExact _ | readToEnd _ => cases hon
  call_idle {self c o} passes hon hidle := by
    unfold Call.idle at hidle
    split at hidle <;> cases hidle
    · cases hon
    · simp [call, writeAll, writeAllLoop]

end SendStream

end TokioTquic
