import TokioTquic.CleanEnd
import TokioTquic.StreamCodes

/-!
# What the calls of a stream handle report

The calls on a handle complete one `read` or `write` after the other. Beside a party
of a stream runs a ledger of the bytes its engine moved and the bytes these reported.
The commands of a handle are numbered as they are sent, so an answer finds the request
it belongs to.
-/

namespace TokioTquic
open Async
set_option autoImplicit false

universe u
variable {κ : Type u} {β α ω : Type}

def Entry.outcome : Entry α → Option Outcome
  | .returned o => some o
  | _ => none

def outcomes (l : List (Entry α)) : List Outcome := l.filterMap Entry.outcome

def Outcome.Returns : Outcome → Prop
  | .again _ _ => False
  | _ => True

def completionBytes : Option Completion → Bytes
  | some c => c.bytes
  | none => []

/-- What a step does to the call in progress: the `read` or `write` it completes, the
future after it and the call that returns. -/
inductive Moves (future : Option LifeFuture) :
    Option Completion → Option LifeFuture → List Outcome → Prop where
  | stays : Moves future none future []
  | ends : Moves future none none []
  | goes {f g : LifeFuture} : future = some f → g.caller = f.caller → Moves future none (some g) []
  | starts {c : Call} {caller : Caller} {buf : Bytes} : future = none →
      c.start = some (caller, buf) → Moves future none (some ⟨caller, buf, .begin⟩) []
  | idles {c : Call} {o : Outcome} : future = none → c.idle = some o →
      Moves future none none [o]
  | again {f : LifeFuture} {c : Completion} {caller : Caller} {buf : Bytes} : future = some f →
      f.caller.onCompletion c = some (.again caller buf) →
      Moves future (some c) (some ⟨caller, buf, .begin⟩) []
  | returns {f : LifeFuture} {c : Completion} {o : Outcome} : future = some f →
      f.caller.onCompletion c = some o → o.Returns → Moves future (some c) none [o]

theorem Caller.onCompletion_toEnd {caller : Caller} {c : Completion} {data buf : Bytes}
    {sizeLimit : Nat} (h : caller.onCompletion c = some (.again (.readToEnd data sizeLimit) buf)) :
    ∃ data', caller = .readToEnd data' sizeLimit ∧ data' ++ c.bytes = data := by
  unfold onCompletion at h
  split at h
  case h_1 | h_4 => cases h
  case h_6 => cases h
  case h_2 result buf' =>
    rcases result with e | _ | n
    · cases h
    · cases h
    · simp only at h
      split at h <;> cases h
  case h_3 data' sizeLimit' result buf' =>
    rcases result with e | _ | n
    · cases h
    · cases h
    · simp only at h
      split at h <;> cases h
      exact ⟨data', rfl, rfl⟩
  case h_5 result buf' =>
    rcases result with e | n
    · cases h
    · simp only at h
      split at h <;> cases h

/-- What `read_to_end` holds are the bytes reported since it began. -/
theorem Moves.data {future future' : Option LifeFuture} {c : Option Completion}
    {l : List Outcome} (h : Moves future c future' l) {before reported : Bytes}
    (hdata : ∀ f data sizeLimit, future = some f → f.caller = .readToEnd data sizeLimit →
      reported = before ++ data) :
    ∀ f data sizeLimit, future' = some f → f.caller = .readToEnd data sizeLimit →
      reported ++ completionBytes c = (if future.isNone then reported else before) ++ data := by
  intro f data sizeLimit hf hcaller
  cases h with
  | stays =>
    subst hf
    exact (List.append_nil _).trans (hdata f data sizeLimit rfl hcaller)
  | ends | idles | returns => cases hf
  | goes hfuture hg =>
    subst hfuture
    cases hf
    exact (List.append_nil _).trans (hdata _ data sizeLimit rfl (hg ▸ hcaller))
  | @starts c caller buf hfuture hstart =>
    subst hfuture
    cases hf
    obtain rfl : caller = .readToEnd data sizeLimit := hcaller
    have hempty : data = [] := by
      cases c with
      | readToEnd limit =>
        cases hstart
        rfl
      | readExact buf' | writeAll buf' =>
        simp only [Call.start] at hstart
        split at hstart <;> cases hstart
      | _ => cases hstart
    rw [hempty]
    rfl
  | @again f' c caller buf hfuture hagain =>
    subst hfuture
    cases hf
    obtain rfl : caller = .readToEnd data sizeLimit := hcaller
    obtain ⟨data', hcaller', hsum⟩ := Caller.onCompletion_toEnd hagain
    rw [hdata f' data' sizeLimit rfl hcaller', List.append_assoc]
    exact congrArg (before ++ ·) hsum

namespace StreamLife
open StreamHandle

def commands (s : StreamLife β α) : List (ConnCommand Nat) :=
  s.history.filterMap Entry.command

/-- What the operations of a handle do besides the polls of its futures. -/
inductive Uses [StreamHandle β α] (s t : StreamLife β α) : Prop where
  | nothing : t.history = s.history → t.next = s.next → t.future = none → Uses s t
  | sends (cmd : ConnCommand Nat) : t.history = s.history ++ [.sent cmd] → t.next = s.next + 1 →
      (∀ n, cmd.respond = some n → n = s.next) → t.future = none → Uses s t
  | starts {c : Call} {caller : Caller} {buf : Bytes} : c.start = some (caller, buf) →
      t = s.goto (some ⟨caller, buf, .begin⟩) → Uses s t
  | idles {c : Call} {o : Outcome} : c.idle = some o → t = s.log (.returned o) → Uses s t

variable [StreamHandle β α] {s t : StreamLife β α}

theorem call_uses {c : Call} (h : s.call c = some t) : Uses s t := by
  unfold call at h
  split at h
  · split at h
    · rename_i caller buf hstart
      cases h
      exact .starts hstart rfl
    · obtain ⟨o, ho, rfl⟩ := Option.map_eq_some_iff.mp h
      exact .idles ho rfl
  · cases h

/-- The `read` or `write` that a step completes. -/
def completes (s : StreamLife β α) : LifeEvent ω α → Option Completion
  | .poll =>
    match s.future with
    | some ⟨_, buf, .begin⟩ => if ended s.self then some (atEnd β buf) else none
    | _ => none
  | .answer a =>
    match s.future with
    | some ⟨_, buf, .reply _⟩ =>
      match (onAnswer s.self buf a).2 with
      | .ret c => some c
      | .wait => none
    | _ => none
  | .waited (some e) =>
    match s.future with
    | some ⟨_, buf, .wait⟩ => some ((half s.self).connectionLost buf e)
    | _ => none
  | _ => none

theorem outcomes_append (l m : List (Entry α)) : outcomes (l ++ m) = outcomes l ++ outcomes m :=
  List.filterMap_append

def returns (s t : StreamLife β α) : List Outcome :=
  outcomes (t.history.drop s.history.length)

omit [StreamHandle β α] in
theorem returns_append {l : List (Entry α)} (h : t.history = s.history ++ l) :
    s.returns t = outcomes l := by
  rw [returns, h, List.drop_left]

omit [StreamHandle β α] in
theorem returns_nil (h : t.history = s.history) : s.returns t = [] := by
  rw [returns, h, List.drop_length]
  rfl

omit [StreamHandle β α] in
theorem complete_moves {f : LifeFuture} {c : Completion} {l : List (Entry α)}
    {u : StreamLife β α} (hu : u.history = s.history ++ l) (hl : outcomes l = [])
    (hf : s.future = some f) {g : LifeFuture} (hg : g.caller = f.caller)
    (h : u.complete g c = some t) : Moves s.future (some c) t.future (s.returns t) := by
  unfold complete at h
  split at h
  · rename_i caller buf ho
    cases h
    have hnone : s.returns (u.goto (some ⟨caller, buf, .begin⟩)) = outcomes l := returns_append hu
    rw [hnone, hl]
    exact .again hf (hg ▸ ho)
  · rename_i o hagain ho
    cases h
    have hhistory : ((u.goto none).log (.returned o)).history =
        s.history ++ (l ++ [.returned o]) := by
      simp only [log, goto, hu, List.append_assoc]
    rw [returns_append hhistory, outcomes_append, hl]
    refine .returns hf (hg ▸ ho) ?_
    cases o with
    | again caller buf => exact absurd rfl (hagain caller buf)
    | _ => trivial
  · cases h

theorem uses_moves (h : Uses s t) (hfuture : s.future = none) :
    Moves s.future none t.future (s.returns t) := by
  cases h with
  | nothing hhistory _ hnone =>
    rw [returns_nil hhistory, hnone]
    exact .ends
  | sends cmd hhistory _ _ hnone =>
    rw [returns_append hhistory, hnone]
    exact .ends
  | starts hstart ht =>
    subst ht
    have hnil : ∀ future, s.returns (s.goto future) = [] := fun _ => returns_nil rfl
    rw [hnil]
    exact .starts hfuture hstart
  | @idles c o hidle ht =>
    subst ht
    rw [returns_append (l := [.returned o]) rfl]
    exact hfuture ▸ .idles rfl hidle

theorem step_moves {use : StreamLife β α → ω → Option (StreamLife β α)} {e : LifeEvent ω α}
    (huse : ∀ op, s.future = none → use s op = some t → Uses s t)
    (hstep : step use s e = some t) :
    Moves s.future (s.completes e) t.future (s.returns t) := by
  cases e with
  | use op =>
    simp only [step] at hstep
    split at hstep
    · rename_i hidle
      simp only [Bool.and_eq_true, Option.isNone_iff_eq_none] at hidle
      exact uses_moves (huse op hidle.1 hstep) hidle.1
    · cases hstep
  | poll =>
    simp only [step] at hstep
    split at hstep
    · rename_i caller buf hf
      simp only [completes, hf]
      split at hstep <;> rename_i hended
      · rw [if_pos hended, ← hf]
        exact complete_moves (l := []) (List.append_nil _).symm rfl hf rfl hstep
      · rw [if_neg hended]
        cases hstep
        rw [returns_append (l := [.sent ((half s.self).request buf s.next)]) rfl]
        exact .goes rfl rfl
    · cases hstep
  | answer a =>
    simp only [step] at hstep
    split at hstep
    · rename_i caller buf n hf
      simp only [completes, hf]
      unfold answer at hstep
      split at hstep <;> rename_i self _ heq
      · cases hstep
        rw [heq, returns_append (l := [.answered a]) rfl]
        exact .goes rfl rfl
      · rw [heq, ← hf]
        exact complete_moves (l := [.answered a]) rfl rfl hf rfl hstep
    · cases hstep
  | waited error =>
    simp only [step] at hstep
    split at hstep
    · rename_i caller buf hf
      cases error with
      | some e =>
        simp only [completes, hf]
        rw [← hf]
        exact complete_moves (l := []) (List.append_nil _).symm rfl hf rfl hstep
      | none =>
        cases hstep
        rw [hf, returns_append (l := [.sent ((half s.self).request buf s.next)]) rfl]
        exact .goes rfl rfl
    · cases hstep
  | cancel =>
    simp only [step] at hstep
    split at hstep <;> cases hstep
    have hnil : s.returns (s.goto none) = [] := returns_nil rfl
    rw [hnil]
    exact .ends
  | unread a =>
    cases hstep
    rw [returns_append (l := [.unread a]) rfl]
    exact .stays

/-! ### The numbers of the commands -/

/-- A command that is answered carries its place among the commands of the handle, and
the one that a future awaits is its request. -/
structure Numbered (s : StreamLife β α) : Prop where
  length : s.commands.length = s.next
  respond : ∀ i (cmd : ConnCommand Nat) n, s.commands[i]? = some cmd → cmd.respond = some n → n = i
  awaited : ∀ f n, s.future = some f → f.point = .reply n →
    s.commands[n]? = some ((half s.self).request f.buf n)

omit [StreamHandle β α] in
theorem commands_append {l : List (Entry α)} (h : t.history = s.history ++ l) :
    t.commands = s.commands ++ l.filterMap Entry.command := by
  rw [commands, h, List.filterMap_append]
  rfl

theorem Numbered.same (hs : s.Numbered) (hcommands : t.commands = s.commands)
    (hnext : t.next = s.next) (hfuture : ∀ f n, t.future = some f → f.point = .reply n →
      s.future = some f ∧ half t.self = half s.self) : t.Numbered where
  length := by rw [hcommands, hnext, hs.length]
  respond := by
    rw [hcommands]
    exact hs.respond
  awaited := by
    intro f n hf hp
    obtain ⟨hf', hhalf⟩ := hfuture f n hf hp
    rw [hcommands, hhalf]
    exact hs.awaited f n hf' hp

theorem Numbered.send (hs : s.Numbered) {cmd : ConnCommand Nat}
    (hcommands : t.commands = s.commands ++ [cmd]) (hnext : t.next = s.next + 1)
    (hcmd : ∀ n, cmd.respond = some n → n = s.next)
    (hfuture : ∀ f n, t.future = some f → f.point = .reply n →
      n = s.next ∧ cmd = (half t.self).request f.buf n) : t.Numbered where
  length := by simp [hcommands, hnext, hs.length]
  respond := by
    intro i cmd' n h hn
    rw [hcommands] at h
    by_cases hi : i < s.commands.length
    · rw [List.getElem?_append_left hi] at h
      exact hs.respond i cmd' n h hn
    · rw [List.getElem?_append_right (by omega)] at h
      obtain ⟨hi', heq⟩ := List.getElem?_eq_some_iff.mp h
      have hlast : i - s.commands.length = 0 := by simpa using hi'
      have hlength := hs.length
      simp only [hlast, List.getElem_singleton] at heq
      rw [← heq] at hn
      have hn' := hcmd n hn
      omega
  awaited := by
    intro f n hf hp
    obtain ⟨rfl, rfl⟩ := hfuture f n hf hp
    rw [hcommands, ← hs.length]
    simp

theorem Numbered.request (hs : s.Numbered) (f : LifeFuture) : (s.request f).Numbered := by
  have hcommands : (s.request f).commands =
      s.commands ++ [(half s.self).request f.buf s.next] :=
    commands_append (l := [.sent _]) rfl
  refine hs.send hcommands rfl ?_ ?_
  · intro n hn
    rw [Half.request_respond] at hn
    exact (Option.some.inj hn).symm
  · intro g n hg hn
    cases hg
    cases hn
    exact ⟨rfl, rfl⟩

omit [StreamHandle β α] in
theorem complete_commands {f : LifeFuture} {c : Completion} (h : s.complete f c = some t) :
    t.commands = s.commands ∧ t.next = s.next ∧ ∀ g, t.future = some g → g.point = .begin := by
  unfold complete at h
  split at h <;> cases h
  · refine ⟨rfl, rfl, ?_⟩
    intro g hg
    cases hg
    rfl
  · refine ⟨?_, rfl, nofun⟩
    rw [commands_append (s := s) (l := [.returned _]) rfl]
    exact List.append_nil _

theorem Numbered.complete (hs : s.Numbered) {u : StreamLife β α} {f : LifeFuture} {c : Completion}
    (hcommands : u.commands = s.commands) (hnext : u.next = s.next)
    (h : u.complete f c = some t) : t.Numbered := by
  obtain ⟨hcommands', hnext', hbegin⟩ := complete_commands h
  apply hs.same (hcommands'.trans hcommands) (hnext'.trans hnext)
  intro g n hg hp
  rw [hbegin g hg] at hp
  cases hp

theorem Numbered.uses (hs : s.Numbered) (h : Uses s t) (hfuture : s.future = none) :
    t.Numbered := by
  cases h with
  | nothing hhistory hnext hnone =>
    apply hs.same (by rw [commands, hhistory]; rfl) hnext
    intro f n hf
    rw [hnone] at hf
    cases hf
  | sends cmd hhistory hnext hcmd hnone =>
    apply hs.send (commands_append hhistory) hnext hcmd
    intro f n hf
    rw [hnone] at hf
    cases hf
  | starts hstart ht =>
    subst ht
    refine hs.same ?_ ?_ ?_
    · rfl
    · rfl
    · intro f n hf hp
      cases hf
      cases hp
  | @idles c o hidle ht =>
    subst ht
    have hcommands : (s.log (.returned o)).commands = s.commands ++ [] :=
      commands_append (l := [.returned o]) rfl
    rw [List.append_nil] at hcommands
    refine hs.same hcommands rfl ?_
    intro f n hf
    rw [log, hfuture] at hf
    cases hf

theorem step_numbered {use : StreamLife β α → ω → Option (StreamLife β α)} {e : LifeEvent ω α}
    (huse : ∀ op, s.future = none → use s op = some t → Uses s t) (hs : s.Numbered)
    (hstep : step use s e = some t) : t.Numbered := by
  have hanswered : ∀ a self future, (((s.log (.answered a)).become self).goto future).commands =
      s.commands ++ [] := fun a _ _ => commands_append (l := [.answered a]) rfl
  have hunread : ∀ a, (s.log (.unread a)).commands = s.commands ++ [] :=
    fun a => commands_append (l := [.unread a]) rfl
  simp only [List.append_nil] at hanswered hunread
  cases e with
  | use op =>
    simp only [step] at hstep
    split at hstep
    · rename_i hidle
      simp only [Bool.and_eq_true, Option.isNone_iff_eq_none] at hidle
      exact hs.uses (huse op hidle.1 hstep) hidle.1
    · cases hstep
  | poll =>
    simp only [step] at hstep
    split at hstep
    · split at hstep
      · exact hs.complete rfl rfl hstep
      · cases hstep
        exact hs.request _
    · cases hstep
  | answer a =>
    simp only [step] at hstep
    split at hstep
    · unfold answer at hstep
      split at hstep
      · cases hstep
        refine hs.same (hanswered a _ _) rfl ?_
        intro f n hf hp
        cases hf
        cases hp
      · refine hs.complete ?_ ?_ hstep
        · exact hanswered a _ s.future
        · rfl
    · cases hstep
  | waited error =>
    simp only [step] at hstep
    split at hstep
    · cases error with
      | some e => exact hs.complete rfl rfl hstep
      | none =>
        cases hstep
        exact hs.request _
    · cases hstep
  | cancel =>
    simp only [step] at hstep
    split at hstep <;> cases hstep
    refine hs.same rfl rfl ?_
    intro f n hf
    cases hf
  | unread a =>
    cases hstep
    exact hs.same (hunread a) rfl fun f n hf _ => ⟨hf, rfl⟩

theorem step_idle {use : StreamLife β α → ω → Option (StreamLife β α)} {e : LifeEvent ω α}
    (huse : ∀ op, s.future = none → use s op = some t → Uses s t)
    (hs : s.dropped = true → s.future = none) (hstep : step use s e = some t) :
    t.dropped = true → t.future = none := by
  have hcomplete : ∀ {u : StreamLife β α} {f c}, u.complete f c = some t →
      u.dropped = s.dropped → t.dropped = s.dropped := by
    intro u f c h hu
    unfold complete at h
    split at h <;> cases h <;> exact hu
  have hbusy : ∀ {f}, s.future = some f → t.dropped = s.dropped → t.dropped = true →
      t.future = none := by
    intro f hf hsame ht
    rw [hs (hsame ▸ ht)] at hf
    cases hf
  cases e with
  | use op =>
    simp only [step] at hstep
    split at hstep
    · rename_i hidle
      simp only [Bool.and_eq_true, Option.isNone_iff_eq_none, Bool.not_eq_true'] at hidle
      cases huse op hidle.1 hstep with
      | nothing _ _ hnone => exact fun _ => hnone
      | sends _ _ _ _ hnone => exact fun _ => hnone
      | starts _ ht =>
        subst ht
        intro hd
        rw [goto, hidle.2] at hd
        cases hd
      | idles _ ht =>
        subst ht
        exact fun _ => hidle.1
    · cases hstep
  | poll =>
    simp only [step] at hstep
    split at hstep
    · rename_i hf
      split at hstep
      · exact hbusy hf (hcomplete hstep rfl)
      · cases hstep
        exact hbusy hf rfl
    · cases hstep
  | answer a =>
    simp only [step] at hstep
    split at hstep
    · rename_i hf
      unfold answer at hstep
      split at hstep
      · cases hstep
        exact hbusy hf rfl
      · exact hbusy hf (hcomplete hstep rfl)
    · cases hstep
  | waited error =>
    simp only [step] at hstep
    split at hstep
    · rename_i hf
      cases error with
      | some e => exact hbusy hf (hcomplete hstep rfl)
      | none =>
        cases hstep
        exact hbusy hf rfl
    · cases hstep
  | cancel =>
    simp only [step] at hstep
    split at hstep <;> cases hstep
    exact fun _ => rfl
  | unread a =>
    cases hstep
    exact hs

theorem step_dropped {use : StreamLife β α → ω → Option (StreamLife β α)} {e : LifeEvent ω α}
    (hfuture : s.future = none) (hstep : step use s e = some t) (hs : s.dropped = true) :
    t.dropped = true := by
  cases e with
  | unread a =>
    cases hstep
    exact hs
  | _ => simp [step, hfuture, hs] at hstep

end StreamLife

/-! ## The two handles -/

theorem SendLife.finish_uses {s : SendLife} (hfuture : s.future = none) (dropped : Bool) :
    s.Uses { finish s with dropped := dropped } := by
  unfold finish
  split
  · exact .nothing rfl rfl hfuture
  · refine .sends (.streamWrite s.self.streamId [] true s.next) rfl rfl ?_ hfuture
    intro n hn
    cases hn
    rfl

theorem SendLife.use_uses {s t : SendLife} (op : SendOp) (hfuture : s.future = none)
    (h : use s op = some t) : s.Uses t := by
  cases op with
  | call c => exact StreamLife.call_uses h
  | finish | pollShutdown =>
    cases h
    exact finish_uses hfuture (finish s).dropped
  | drop =>
    cases h
    exact finish_uses hfuture true
  | reset _ | setPriority _ | pollWrite _ =>
    simp only [use] at h
    split at h <;> cases h
    · exact .nothing rfl rfl hfuture
    · refine .sends _ rfl rfl ?_ hfuture
      intro n hn
      cases hn <;> rfl

theorem RecvLife.stop_uses {s : RecvLife} (hfuture : s.future = none) (errorCode : VarInt)
    (dropped : Bool) : s.Uses { stop s errorCode with dropped := dropped } := by
  unfold stop
  split
  · exact .nothing rfl rfl hfuture
  · exact .sends (.streamShutdownRead s.self.streamId _) rfl rfl nofun hfuture

theorem RecvLife.use_uses {s t : RecvLife} (op : RecvOp) (hfuture : s.future = none)
    (h : use s op = some t) : s.Uses t := by
  cases op with
  | call c => exact StreamLife.call_uses h
  | stop errorCode =>
    cases h
    exact stop_uses hfuture errorCode (stop s errorCode).dropped
  | drop =>
    cases h
    exact stop_uses hfuture (.fromU32 0) true
  | pollRead maxLen =>
    simp only [use] at h
    split at h <;> cases h
    · exact .nothing rfl rfl hfuture
    · refine .sends (.streamRead s.self.streamId maxLen s.next) rfl rfl ?_ hfuture
      intro n hn
      cases hn
      rfl

/-! ## The ledger of a party -/

/-- The engine takes FIN with a write, or gives it away with a read. -/
def ConnCommand.finMoved (T : Tquic κ) (conn : Option κ) : ConnCommand Nat → Bool
  | .streamRead streamId maxLen _ =>
    match conn.map fun c => (T.streamRead c streamId maxLen).1 with
    | some (.ok (_, fin)) => fin
    | _ => false
  | .streamWrite streamId data fin _ =>
    match conn.map fun c => (T.streamWrite c streamId data fin).1 with
    | some (.ok n) => fin && decide (data.length ≤ n)
    | _ => false
  | _ => false

/-- The bytes of a pass: those of the `read` or `write` it completes, none if it waits. -/
def Pass.bytes : Pass Completion → Bytes
  | .ret c => c.bytes
  | .wait => []

theorem Half.connectionLost_bytes (h : Half) (buf : Bytes) (e : ConnectionError) :
    (h.connectionLost buf e).bytes = [] := by
  cases h <;> rfl

theorem SendStream.onReply_moved {buf : Bytes} {result : Except TquicError Nat} :
    ((onReply (some (writeReply (some result)))).map (.write · buf)).bytes =
      match result with
      | .ok n => buf.take n
      | .error _ => [] := by
  cases result with
  | error e => cases e <;> rfl
  | ok n => cases n <;> rfl

theorem RecvStream.onReply_moved {self : RecvStream} {buf : Bytes}
    {result : Except TquicError (Bytes × Bool)} :
    ((self.onReply buf (some (readReply buf.length (some result)))).2.2.map
      (.read · (self.onReply buf (some (readReply buf.length (some result)))).2.1)).bytes =
      match result with
      | .ok (data, _) => data.take buf.length
      | .error _ => [] := by
  rcases result with e | ⟨data, fin⟩
  · cases e <;> rfl
  · simp only [readReply, onReply]
    generalize data.take buf.length = data
    cases data with
    | nil => cases fin <;> rfl
    | cons b data => cases fin <;> simp [Pass.map, Pass.bytes, Completion.bytes]

/-- What the answers to its requests tell a handle about the bytes. -/
class CountedHandle (β : Type) (α : outParam Type) extends AnsweredHandle.{u} β α where
  atEnd_bytes : ∀ buf, (atEnd buf).bytes = []
  gone_bytes : ∀ self buf, (onAnswer self buf gone).2.bytes = []
  gone_fin : fin gone = false
  answer_respond : ∀ {κ : Type u} {T : Tquic κ} {conn : Option κ} {cmd : ConnCommand Nat} {n a},
    answer T conn cmd = some (n, a) → cmd.respond = some n
  answer_fin : ∀ {κ : Type u} {T : Tquic κ} {conn : Option κ} {cmd : ConnCommand Nat} {n a},
    answer T conn cmd = some (n, a) → fin a = true → cmd.finMoved T conn = true
  answer_request : ∀ {κ : Type u} (T : Tquic κ) (conn : Option κ) self buf n, ∃ a,
    answer T conn ((half self).request buf n) = some (n, a) ∧
      (onAnswer self buf a).2.bytes = ((half self).request buf n).moved T conn

instance : CountedHandle.{u} SendStream WriteAnswer where
  atEnd_bytes _ := rfl
  gone_bytes _ _ := rfl
  gone_fin := rfl
  answer_respond {κ T conn cmd n a} h := by
    cases cmd <;> cases h
    rfl
  answer_fin _ h := by cases h
  answer_request T conn self buf n := by
    refine ⟨_, rfl, ?_⟩
    cases conn with
    | none => rfl
    | some c =>
      simp only [StreamHandle.onAnswer, StreamHandle.half, Half.request, WriteAnswer.reply,
        SendStream.onReply_moved, ConnCommand.moved, Option.map_some]
      cases (T.streamWrite c self.streamId buf false).1 <;> rfl

instance : CountedHandle.{u} RecvStream ReadAnswer where
  atEnd_bytes _ := rfl
  gone_bytes _ _ := rfl
  gone_fin := rfl
  answer_respond {κ T conn cmd n a} h := by
    cases cmd <;> cases h
    rfl
  answer_fin {κ T conn cmd n a} h hfin := by
    cases cmd <;> cases h
    cases conn with
    | none => cases hfin
    | some c =>
      simp only [ConnCommand.finMoved, Option.map_some]
      simp only [StreamHandle.fin, ReadAnswer.fin] at hfin
      generalize (T.streamRead c _ _).1 = result at hfin ⊢
      rcases result with e | ⟨data, fin⟩
      · cases hfin
      · exact hfin
  answer_request T conn self buf n := by
    refine ⟨_, rfl, ?_⟩
    cases conn with
    | none => rfl
    | some c =>
      simp only [StreamHandle.onAnswer, StreamHandle.half, Half.request, ReadAnswer.reply,
        RecvStream.onReply_moved, ConnCommand.moved, Option.map_some]
      rcases (T.streamRead c self.streamId buf.length).1 with e | ⟨data, fin⟩ <;> rfl

/-! ## The ledger of a party -/

namespace Party
open StreamHandle AnsweredHandle CountedHandle
variable [CountedHandle.{u} β α] {p q : Party β α κ}

/-- What an event of the party is for the life of its handle. -/
def lifeEvent (T : Tquic κ) (p : Party β α κ) : PartyEvent ω α κ → Option (LifeEvent ω α)
  | .handle e => some e
  | .process =>
    match p.next with
    | none => none
    | some cmd => (answer β T p.conn cmd).map fun (n, a) => .arrives p.life.future n a
  | .gone => some (.answer (gone β))
  | .engine _ => none

omit [CountedHandle.{u} β α] in
/-- The command that the bridge thread takes. -/
def processes (p : Party β α κ) : PartyEvent ω α κ → Option (ConnCommand Nat)
  | .process => p.next
  | _ => none

def moved (T : Tquic κ) (p : Party β α κ) (e : PartyEvent ω α κ) : Bytes :=
  match p.processes e with
  | some cmd => cmd.moved T p.conn
  | none => []

def finMoved (T : Tquic κ) (p : Party β α κ) (e : PartyEvent ω α κ) : Bool :=
  match p.processes e with
  | some cmd => cmd.finMoved T p.conn
  | none => false

def reports (T : Tquic κ) (p : Party β α κ) (e : PartyEvent ω α κ) : Bytes :=
  completionBytes ((p.lifeEvent T e).bind p.life.completes)

def Awaits (p : Party β α κ) : Prop :=
  ∃ f, p.life.future = some f ∧ f.point = .reply p.done

/-- No bytes are moved for a request nobody waits for. -/
def KeepsBytes (T : Tquic κ) (p : Party β α κ) (e : PartyEvent ω α κ) : Prop :=
  ∀ cmd, p.processes e = some cmd → p.Awaits ∨ cmd.moved T p.conn = []

theorem step_life {T : Tquic κ} {use : StreamLife β α → ω → Option (StreamLife β α)}
    {e : PartyEvent ω α κ} (hstep : p.step T use e = some q) :
    q.done = p.done + (p.processes e).toList.length ∧
      match p.lifeEvent T e with
      | some event => p.life.step use event = some q.life
      | none => q.life = p.life := by
  cases e with
  | handle e =>
    simp only [step] at hstep
    split at hstep
    · obtain ⟨life, hlife, rfl⟩ := Option.map_eq_some_iff.mp hstep
      exact ⟨rfl, hlife⟩
    · cases hstep
  | process =>
    simp only [step] at hstep
    split at hstep
    · cases hstep
    · rename_i cmd hnext
      simp only [lifeEvent, processes, hnext]
      split at hstep <;> rename_i hanswer <;> simp only [hanswer, Option.map_none, Option.map_some]
      · cases hstep
        exact ⟨rfl, rfl⟩
      · obtain ⟨life, hlife, rfl⟩ := Option.map_eq_some_iff.mp hstep
        exact ⟨rfl, hlife⟩
  | gone =>
    obtain ⟨life, hlife, rfl⟩ := Option.map_eq_some_iff.mp hstep
    exact ⟨rfl, hlife⟩
  | engine conn =>
    cases hstep
    exact ⟨rfl, rfl⟩

theorem step_moves {T : Tquic κ} {use : StreamLife β α → ω → Option (StreamLife β α)}
    {e : PartyEvent ω α κ}
    (huse : ∀ {s t : StreamLife β α} op, s.future = none → use s op = some t → s.Uses t)
    (hstep : p.step T use e = some q) :
    Moves p.life.future ((p.lifeEvent T e).bind p.life.completes) q.life.future
      (p.life.returns q.life) := by
  obtain ⟨_, hlife⟩ := step_life hstep
  split at hlife <;> rename_i hevent <;> rw [hevent]
  · exact StreamLife.step_moves huse hlife
  · rw [StreamLife.returns_nil (by rw [hlife]), hlife]
    exact .stays

theorem completes_own {s : StreamLife β α} {e : LifeEvent ω α} (he : ∀ a, e ≠ .answer a) :
    completionBytes (s.completes e) = [] := by
  cases e with
  | poll =>
    simp only [StreamLife.completes]
    split
    · split
      · exact atEnd_bytes _
      · rfl
    · rfl
  | answer a => exact absurd rfl (he a)
  | waited error =>
    cases error with
    | none => rfl
    | some e =>
      simp only [StreamLife.completes]
      split
      · exact Half.connectionLost_bytes _ _ _
      · rfl
  | _ => rfl

theorem completes_answer {s : StreamLife β α} {f : LifeFuture} {n : Nat} (a : α)
    (hf : s.future = some f) (hp : f.point = .reply n) :
    s.completes (ω := ω) (.answer a) =
      match (onAnswer s.self f.buf a).2 with
      | .ret c => some c
      | .wait => none := by
  obtain ⟨caller, buf, point⟩ := f
  cases hp
  simp only [StreamLife.completes, hf]

theorem completes_gone (s : StreamLife β α) :
    completionBytes (s.completes (.answer (gone β) : LifeEvent ω α)) = [] := by
  simp only [StreamLife.completes]
  split
  · rename_i buf _ _
    have hbytes := gone_bytes s.self buf
    split <;> rename_i hret
    · rwa [hret] at hbytes
    · rfl
  · rfl

/-- What calls report is what the engine moved. -/
theorem reports_moved {T : Tquic κ} {use : StreamLife β α → ω → Option (StreamLife β α)}
    {e : PartyEvent ω α κ} (hp : p.life.Numbered) (hkeep : p.KeepsBytes T e)
    (hstep : p.step T use e = some q) : p.reports T e = p.moved T e := by
  cases e with
  | handle e =>
    have hown : ∀ a, e ≠ .answer a := by
      rintro a rfl
      simp [step, LifeEvent.isOwn] at hstep
    exact completes_own hown
  | process =>
    simp only [step] at hstep
    cases hnext : p.next with
    | none => simp only [hnext] at hstep; cases hstep
    | some cmd =>
      have hmoved : p.moved T (.process : PartyEvent ω α κ) = cmd.moved T p.conn := by
        simp only [moved, processes, hnext]
      rw [hmoved]
      by_cases hawaits : p.Awaits
      · -- the command is the request that is awaited
        obtain ⟨f, hf, hpoint⟩ := hawaits
        have hrequest := hp.awaited f p.done hf hpoint
        obtain rfl := Option.some.inj (hnext.symm.trans hrequest)
        obtain ⟨a, hanswer, hbytes⟩ := answer_request T p.conn p.life.self f.buf p.done
        have harrives : LifeEvent.arrives (ω := ω) p.life.future p.done a = .answer a := by
          obtain ⟨caller, buf, point⟩ := f
          cases hpoint
          simp only [LifeEvent.arrives, hf, if_true]
        simp only [reports, lifeEvent, hnext, hanswer, Option.map_some, Option.bind_some, harrives,
          completes_answer a hf hpoint]
        rw [← hbytes]
        cases (onAnswer p.life.self f.buf a).2 <;> rfl
      · -- nobody waits, and nothing was moved
        rw [(hkeep cmd hnext).resolve_left hawaits]
        simp only [reports, lifeEvent, hnext]
        cases hanswer : answer β T p.conn cmd with
        | none => rfl
        | some na =>
          obtain ⟨n, a⟩ := na
          obtain rfl := hp.respond p.done cmd n hnext (answer_respond hanswer)
          have harrives : LifeEvent.arrives (ω := ω) p.life.future p.done a = .unread a := by
            unfold LifeEvent.arrives
            split
            · rename_i m hf
              split
              · rename_i hm
                exact absurd ⟨_, hf, by rw [hm]⟩ hawaits
              · rfl
            · rfl
          simp only [Option.map_some, Option.bind_some, harrives, StreamLife.completes,
            completionBytes]
  | gone => exact completes_gone (ω := ω) p.life
  | engine conn => rfl

end Party

/-- A party with the bytes its engine moved for the handle and those its `read`s or
`write`s reported; `before` is what they had reported when the call in progress began. A
result stands between what was reported before the call and after it. -/
structure Ledger (β α : Type) (κ : Type u) where
  party : Party β α κ
  moved : Bytes
  fin : Bool
  reported : Bytes
  before : Bytes
  results : List (Bytes × Bytes × Outcome)

namespace Ledger
open StreamHandle AnsweredHandle CountedHandle

def init (self : β) (conn : κ) : Ledger β α κ := ⟨.init self conn, [], false, [], [], []⟩

/-- What was reported before the call in progress, or the one that begins now. -/
def start (s : Ledger β α κ) : Bytes := if s.party.life.future.isNone then s.reported else s.before

variable [CountedHandle.{u} β α]

def record (T : Tquic κ) (s : Ledger β α κ) (e : PartyEvent ω α κ) (party : Party β α κ) :
    Ledger β α κ where
  party := party
  moved := s.moved ++ s.party.moved T e
  fin := s.fin || s.party.finMoved T e
  reported := s.reported ++ s.party.reports T e
  before := s.start
  results := s.results ++ (s.party.life.returns party.life).map fun o =>
    (s.start, s.reported ++ s.party.reports T e, o)

def step (T : Tquic κ) (use : StreamLife β α → ω → Option (StreamLife β α)) (s : Ledger β α κ)
    (e : PartyEvent ω α κ) : Option (Ledger β α κ) :=
  (s.party.step T use e).map (s.record T e)

/-- The reads and writes report what the engine moved, and `read_to_end` holds what they
reported since it began. -/
structure Sound (h : Half) (s : Ledger β α κ) : Prop where
  disciplined : s.party.life.Disciplined h
  numbered : s.party.life.Numbered
  idle : s.party.life.dropped = true → s.party.life.future = none
  balanced : s.reported = s.moved
  data : ∀ f data sizeLimit, s.party.life.future = some f →
    f.caller = .readToEnd data sizeLimit → s.reported = s.before ++ data

theorem sound_init (self : β) (conn : κ) (hself : ended self = false) :
    (init self conn : Ledger β α κ).Sound (half self) where
  disciplined := ⟨rfl, fun _ h => absurd h List.not_mem_nil, by
    change Flagged _ _ (ended self) _
    rw [hself]
    exact .nil, Or.inr hself, nofun⟩
  numbered := ⟨rfl, fun _ _ _ h => (by cases h), fun _ _ h => (by cases h)⟩
  idle := nofun
  balanced := rfl
  data := nofun

theorem sound_step {T : Tquic κ} {use : StreamLife β α → ω → Option (StreamLife β α)} {h : Half}
    (hlaw : Party.Lawful h use)
    (huse : ∀ {s t : StreamLife β α} op, s.future = none → use s op = some t → s.Uses t)
    {s t : Ledger β α κ} {e : PartyEvent ω α κ} (hs : s.Sound h) (hkeep : s.party.KeepsBytes T e)
    (hstep : s.step T use e = some t) : t.Sound h := by
  obtain ⟨q, hq, rfl⟩ := Option.map_eq_some_iff.mp hstep
  obtain ⟨_, hlife⟩ := Party.step_life hq
  have hreports := Party.reports_moved hs.numbered hkeep hq
  have hmoves := Party.step_moves huse hq
  have hbalanced : s.reported ++ s.party.reports T e = s.moved ++ s.party.moved T e := by
    rw [hs.balanced, hreports]
  split at hlife
  · exact ⟨StreamLife.step_disciplined hlaw.disciplined hs.disciplined hlife,
      StreamLife.step_numbered huse hs.numbered hlife,
      StreamLife.step_idle huse hs.idle hlife, hbalanced, hmoves.data hs.data⟩
  · refine ⟨?_, ?_, ?_, hbalanced, hmoves.data hs.data⟩ <;> simp only [record, hlife]
    · exact hs.disciplined
    · exact hs.numbered
    · exact hs.idle

/-- The ledger only watches. -/
theorem step_party {T : Tquic κ} {use : StreamLife β α → ω → Option (StreamLife β α)}
    (s : Ledger β α κ) (e : PartyEvent ω α κ) :
    (s.step T use e).map party = s.party.step T use e := by
  rw [step, Option.map_map]
  exact Option.map_id'

end Ledger

end TokioTquic
