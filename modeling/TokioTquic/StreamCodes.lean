import TokioTquic.StreamEnds

/-!
# Error codes from one end of a stream to the other

A sending half and the peer's receiving half, each with its bridge thread and
its engine. What travels between the engines is not modelled: `Carries` says
that an engine reports only codes the other one was told.
-/

namespace TokioTquic
open Async
set_option autoImplicit false

universe u
variable {κ : Type u} {β α ω : Type}

/-! ## Codes in answers and results -/

def ConnCommand.shutdownCode : ConnCommand Nat → Option Nat
  | .streamShutdownRead _ code | .streamShutdownWrite _ code => some code
  | _ => none

def ReadError.peerCode : ReadError → Option VarInt
  | .reset code => some code
  | _ => none

def WriteError.peerCode : WriteError → Option VarInt
  | .stopped code => some code
  | _ => none

def Completion.peerCode : Completion → Option VarInt
  | .read (.error e) _ => e.peerCode
  | .write (.error e) _ => e.peerCode
  | _ => none

def Outcome.peerCode : Outcome → Option VarInt
  | .read (.error e) | .readExact (.error (.readError e)) | .readToEnd (.error (.read e)) =>
    e.peerCode
  | .write (.error e) | .writeAll (.error e) => e.peerCode
  | _ => none

theorem Caller.onCompletion_peerCode {caller : Caller} {c : Completion} {o : Outcome}
    {code : VarInt} (h : caller.onCompletion c = some o) (ho : o.peerCode = some code) :
    c.peerCode = some code := by
  cases Caller.onCompletion_yields h with
  | readError | exactError | toEndError | writeError | allError => exact ho
  | _ => cases ho

/-- What a handle's requests are answered with: by the engine of a connection that is
there, by the bridge thread, or by a dropped sender (`gone`). `code` is the peer's error
code in an answer of the engine. -/
class AnsweredHandle (β : Type) (α : outParam Type) extends StreamHandle β α where
  answer : {κ : Type u} → Tquic κ → Option κ → ConnCommand Nat → Option (Nat × α)
  gone : α
  code : α → Option Nat
  gone_code : code gone = none
  atEnd_code : ∀ buf, (atEnd buf).peerCode = none
  onAnswer_code : ∀ self buf a c d, (onAnswer self buf a).2 = .ret c → c.peerCode = some d →
    ∃ n, code a = some n ∧ d = .fromU32 n

def WriteAnswer.code : WriteAnswer → Option Nat
  | .engine (.error (.streamStopped code)) => some code
  | _ => none

def ReadAnswer.code : ReadAnswer → Option Nat
  | .engine (.error (.streamReset code)) => some code
  | _ => none

/-- The answer to a `StreamWrite`, with the number of the request. -/
def ConnCommand.writeAnswer (T : Tquic κ) (conn : Option κ) :
    ConnCommand Nat → Option (Nat × WriteAnswer)
  | .streamWrite streamId data fin n =>
    some (n, match conn with
      | some c => .engine (T.streamWrite c streamId data fin).1
      | none => .noConnection)
  | _ => none

def ConnCommand.readAnswer (T : Tquic κ) (conn : Option κ) :
    ConnCommand Nat → Option (Nat × ReadAnswer)
  | .streamRead streamId maxLen n =>
    some (n, match conn with
      | some c => .engine (T.streamRead c streamId maxLen).1
      | none => .noConnection)
  | _ => none

theorem ConnCommand.writeAnswer_reply {T : Tquic κ} {conn : Option κ} {cmd : ConnCommand Nat}
    {n : Nat} {a : WriteAnswer} (h : cmd.writeAnswer T conn = some (n, a)) :
    ∃ r, a.reply = some r ∧ (processConnCommand T conn cmd).2 = some (n, .written r) := by
  unfold writeAnswer at h
  split at h <;> cases h
  cases conn <;> exact ⟨_, rfl, rfl⟩

theorem ConnCommand.readAnswer_reply {T : Tquic κ} {conn : Option κ} {streamId maxLen n : Nat}
    {a : ReadAnswer} (h : (ConnCommand.streamRead streamId maxLen n).readAnswer T conn = some (n, a)) :
    ∃ r, a.reply maxLen = some r ∧
      (processConnCommand T conn (.streamRead streamId maxLen n)).2 = some (n, .read r) := by
  cases h
  cases conn <;> exact ⟨_, rfl, rfl⟩

theorem WriteAnswer.onReply_code {a : WriteAnswer} {buf : Bytes} {c : Completion} {d : VarInt}
    (h : (SendStream.onReply a.reply).map (.write · buf) = .ret c) (hc : c.peerCode = some d) :
    ∃ n, a.code = some n ∧ d = .fromU32 n := by
  rcases a with (e | n) | _ | _
  · cases e <;> cases h <;> cases hc
    exact ⟨_, rfl, rfl⟩
  · cases n <;> cases h
    cases hc
  · cases h
    cases hc
  · cases h
    cases hc

theorem ReadAnswer.onReply_code {self : RecvStream} {buf : Bytes} {a : ReadAnswer}
    {c : Completion} {d : VarInt}
    (h : (self.onReply buf (a.reply buf.length)).2.2.map
      (.read · (self.onReply buf (a.reply buf.length)).2.1) = .ret c)
    (hc : c.peerCode = some d) : ∃ n, a.code = some n ∧ d = .fromU32 n := by
  rcases a with (e | ⟨data, fin⟩) | _ | _
  · cases e <;> cases h <;> cases hc
    exact ⟨_, rfl, rfl⟩
  · simp only [ReadAnswer.reply, readReply, RecvStream.onReply] at h
    split at h
    · cases h
    · split at h <;> cases h <;> cases hc
  · cases h
    cases hc
  · cases h
    cases hc

instance : AnsweredHandle.{u} SendStream WriteAnswer where
  answer := ConnCommand.writeAnswer
  gone := .bridgeGone
  code := WriteAnswer.code
  gone_code := rfl
  atEnd_code _ := rfl
  onAnswer_code _ _ _ _ _ h hc := WriteAnswer.onReply_code h hc

instance : AnsweredHandle.{u} RecvStream ReadAnswer where
  answer := ConnCommand.readAnswer
  gone := .bridgeGone
  code := ReadAnswer.code
  gone_code := rfl
  atEnd_code _ := rfl
  onAnswer_code _ _ _ _ _ h hc := ReadAnswer.onReply_code h hc

/-! ## One end of the stream -/

def Entry.command : Entry α → Option (ConnCommand Nat)
  | .sent cmd => some cmd
  | _ => none

/-- A handle, the connection at its bridge thread, the number of its commands that were
processed, and the error codes its engine was told. -/
structure Party (β α : Type) (κ : Type u) where
  life : StreamLife β α
  conn : Option κ
  done : Nat
  told : List Nat

/-- `gone` drops the sender of a reply with the bridge thread; `engine` is anything the
engine does on its own. -/
inductive PartyEvent (ω α : Type) (κ : Type u) where
  | handle (e : LifeEvent ω α)
  | process
  | gone
  | engine (conn : Option κ)

/-- What the owner and the tasks of a handle do; answers come from the bridge thread. -/
def LifeEvent.isOwn : LifeEvent ω α → Bool
  | .answer _ | .unread _ => false
  | _ => true

/-- The answer to request `n` arrives, where it is awaited or not. -/
def LifeEvent.arrives (future : Option LifeFuture) (n : Nat) (a : α) : LifeEvent ω α :=
  match future with
  | some ⟨_, _, .reply m⟩ => if m = n then .answer a else .unread a
  | _ => .unread a

namespace Party
open AnsweredHandle
variable [AnsweredHandle.{u} β α]

def init (self : β) (conn : κ) : Party β α κ := ⟨.init self, some conn, 0, []⟩

def next (p : Party β α κ) : Option (ConnCommand Nat) :=
  (p.life.history.filterMap Entry.command)[p.done]?

def execute (T : Tquic κ) (p : Party β α κ) (cmd : ConnCommand Nat) : Party β α κ :=
  { p with
    conn := (processConnCommand T p.conn cmd).1
    done := p.done + 1
    told := if p.conn.isSome then p.told ++ cmd.shutdownCode.toList else p.told }

def setLife (p : Party β α κ) (life : StreamLife β α) : Party β α κ := { p with life := life }

def step (T : Tquic κ) (use : StreamLife β α → ω → Option (StreamLife β α)) (p : Party β α κ) :
    PartyEvent ω α κ → Option (Party β α κ)
  | .handle e => if e.isOwn then (p.life.step use e).map p.setLife else none
  | .process =>
    match p.next with
    | none => none
    | some cmd =>
      match answer β T p.conn cmd with
      | none => some (p.execute T cmd)
      | some (n, a) =>
        (p.life.step use (.arrives p.life.future n a)).map (p.execute T cmd).setLife
  | .gone => (p.life.step use (.answer (gone β))).map p.setLife
  | .engine conn => some { p with conn := conn }

/-- The engine reports none but these codes of the peer. -/
def Reports (T : Tquic κ) (p : Party β α κ) (codes : List Nat) : Prop :=
  ∀ cmd n a c, p.next = some cmd → answer β T p.conn cmd = some (n, a) → code β a = some c →
    c ∈ codes

end Party

/-! ## Both ends -/

structure StreamPair (κ : Type u) where
  send : Party SendStream WriteAnswer κ
  recv : Party RecvStream ReadAnswer κ

inductive PairEvent (κ : Type u) where
  | send (e : PartyEvent SendOp WriteAnswer κ)
  | recv (e : PartyEvent RecvOp ReadAnswer κ)

namespace StreamPair

def init (sendConnId recvConnId streamId : Nat) (sendConn recvConn : κ) : StreamPair κ where
  send := .init ⟨sendConnId, streamId, false⟩ sendConn
  recv := .init ⟨recvConnId, streamId, false⟩ recvConn

def step (T : Tquic κ) (s : StreamPair κ) : PairEvent κ → Option (StreamPair κ)
  | .send e => (s.send.step T SendLife.use e).map fun send => { s with send := send }
  | .recv e => (s.recv.step T RecvLife.use e).map fun recv => { s with recv := recv }

/-- The transport carries error codes unchanged. -/
def Carries (T : Tquic κ) (s : StreamPair κ) : PairEvent κ → Prop
  | .send .process => s.send.Reports T s.recv.told
  | .recv .process => s.recv.Reports T s.send.told
  | _ => True

end StreamPair

/-! ## What a party can know -/

namespace Party
open AnsweredHandle
variable [AnsweredHandle.{u} β α] {p q : Party β α κ} {h : Half}

/-- The codes the own engine was told come from commands of the handle, the codes that
were answered from the peer, and the codes that calls returned from answers. -/
structure Faithful (h : Half) (codes : List Nat) (p : Party β α κ) : Prop where
  disciplined : p.life.Disciplined h
  told : ∀ c ∈ p.told, ∃ cmd, .sent cmd ∈ p.life.history ∧ cmd.shutdownCode = some c
  answered : ∀ a c, .answered a ∈ p.life.history → code β a = some c → c ∈ codes
  returned : ∀ o d, .returned o ∈ p.life.history → o.peerCode = some d →
    ∃ a c, .answered a ∈ p.life.history ∧ code β a = some c ∧ d = .fromU32 c

theorem Faithful.mono {codes codes' : List Nat} (hp : p.Faithful h codes)
    (hcodes : ∀ c ∈ codes, c ∈ codes') : p.Faithful h codes' where
  disciplined := hp.disciplined
  told := hp.told
  answered := fun a c ha hc => hcodes c (hp.answered a c ha hc)
  returned := hp.returned

omit [AnsweredHandle.{u} β α] in
theorem next_sent {p : Party β α κ} {cmd : ConnCommand Nat} (hnext : p.next = some cmd) :
    .sent cmd ∈ p.life.history := by
  obtain ⟨e, he, hcmd⟩ := List.mem_filterMap.mp (List.mem_of_getElem? hnext)
  cases e with
  | sent cmd' =>
    cases hcmd
    exact he
  | _ => cases hcmd

theorem Faithful.execute {codes : List Nat} {T : Tquic κ} (hp : p.Faithful h codes)
    {cmd : ConnCommand Nat} (hnext : p.next = some cmd) : (p.execute T cmd).Faithful h codes where
  disciplined := hp.disciplined
  told := by
    intro c hc
    have hsent := next_sent hnext
    simp only [Party.execute] at hc
    split at hc
    · rcases List.mem_append.mp hc with hc | hc
      · exact hp.told c hc
      · exact ⟨cmd, hsent, Option.mem_toList.mp hc⟩
    · exact hp.told c hc
  answered := hp.answered
  returned := hp.returned

omit [AnsweredHandle.{u} β α] in
theorem reported_code {l : List (Entry α)} {c : Completion} (hl : StreamLife.Reported c l)
    {o : Outcome} {d : VarInt} (ho : .returned o ∈ l) (hd : o.peerCode = some d) :
    c.peerCode = some d := by
  obtain rfl | ⟨caller, o', ho', rfl⟩ := hl
  · cases ho
  · cases List.mem_singleton.mp ho
    exact Caller.onCompletion_peerCode ho' hd

omit [AnsweredHandle.{u} β α] in
theorem reported_answered {l : List (Entry α)} {c : Completion} (hl : StreamLife.Reported c l)
    (a : α) : .answered a ∉ l := by
  obtain rfl | ⟨caller, o, _, rfl⟩ := hl
  · exact List.not_mem_nil
  · intro ha
    cases List.mem_singleton.mp ha

theorem adds_code {life : StreamLife β α} {e : LifeEvent ω α} {l : List (Entry α)}
    (hadds : life.Adds e l) {o : Outcome} {d : VarInt} (ho : .returned o ∈ l)
    (hd : o.peerCode = some d) : ∃ a c, .answered a ∈ l ∧ code β a = some c ∧ d = .fromU32 c := by
  cases hadds with
  | nothing => cases ho
  | sent | waits | unread => cases List.mem_singleton.mp ho
  | idle op hidle =>
    cases List.mem_singleton.mp ho
    unfold Call.idle at hidle
    split at hidle <;> cases hidle <;> cases hd
  | atEnd _ hreported =>
    have hcode := reported_code hreported ho hd
    rw [atEnd_code] at hcode
    cases hcode
  | @lost h' _ _ _ hreported =>
    have hcode := reported_code hreported ho hd
    cases h' <;> cases hcode
  | @returns buf a c l hanswer hreported =>
    rcases List.mem_cons.mp ho with ho | ho
    · cases ho
    · obtain ⟨n, hn, hcode⟩ :=
        onAnswer_code _ buf a c d hanswer (reported_code hreported ho hd)
      exact ⟨a, n, List.mem_cons_self, hn, hcode⟩

theorem adds_answered {life : StreamLife β α} {e : LifeEvent ω α} {l : List (Entry α)}
    (hadds : life.Adds e l) {a : α} (ha : .answered a ∈ l) : e = .answer a := by
  cases hadds with
  | nothing => cases ha
  | sent | idle | unread => cases List.mem_singleton.mp ha
  | atEnd _ hreported | lost hreported => exact absurd ha (reported_answered hreported a)
  | waits =>
    cases List.mem_singleton.mp ha
    rfl
  | returns _ hreported =>
    rcases List.mem_cons.mp ha with ha | ha
    · cases ha
      rfl
    · exact absurd ha (reported_answered hreported a)

/-- What the operations of a handle promise about its life. -/
structure Lawful (h : Half) (use : StreamLife β α → ω → Option (StreamLife β α)) : Prop where
  history : ∀ {s t : StreamLife β α} (op : ω), use s op = some t →
    ∃ l, t.history = s.history ++ l ∧ s.Adds (.use op) l
  disciplined : ∀ {s t : StreamLife β α} {op : ω}, s.Disciplined h → s.future = none →
    use s op = some t → t.Disciplined h

theorem Faithful.setLife {codes : List Nat} (hp : p.Faithful h codes)
    {use : StreamLife β α → ω → Option (StreamLife β α)} (huse : Lawful h use)
    {e : LifeEvent ω α} {life : StreamLife β α} (hstep : p.life.step use e = some life)
    (hanswer : ∀ a c, e = .answer a → code β a = some c → c ∈ codes) :
    (p.setLife life).Faithful h codes := by
  obtain ⟨l, hl, hadds⟩ := StreamLife.step_history huse.history hstep
  have hmono : ∀ {x}, x ∈ p.life.history → x ∈ life.history := fun hx => by
    rw [hl]
    exact List.mem_append_left _ hx
  refine ⟨StreamLife.step_disciplined huse.disciplined hp.disciplined hstep, ?_, ?_, ?_⟩
  · intro c hc
    obtain ⟨cmd, hcmd, hcode⟩ := hp.told c hc
    exact ⟨cmd, hmono hcmd, hcode⟩
  · intro a c ha hc
    change _ ∈ life.history at ha
    rw [hl] at ha
    rcases List.mem_append.mp ha with ha | ha
    · exact hp.answered a c ha hc
    · exact hanswer a c (adds_answered hadds ha) hc
  · intro o d ho hd
    change _ ∈ life.history at ho
    rw [hl] at ho
    rcases List.mem_append.mp ho with ho | ho
    · obtain ⟨a, c, ha, hc⟩ := hp.returned o d ho hd
      exact ⟨a, c, hmono ha, hc⟩
    · obtain ⟨a, c, ha, hc⟩ := adds_code hadds ho hd
      refine ⟨a, c, ?_, hc⟩
      change _ ∈ life.history
      rw [hl]
      exact List.mem_append_right _ ha

theorem arrives_code {codes : List Nat} {future : Option LifeFuture} {n : Nat} {a : α}
    (ha : ∀ c, code β a = some c → c ∈ codes) :
    ∀ a' c, LifeEvent.arrives (ω := ω) future n a = .answer a' → code β a' = some c → c ∈ codes := by
  intro a' c heq hc
  unfold LifeEvent.arrives at heq
  split at heq
  · split at heq <;> cases heq
    exact ha c hc
  · cases heq

theorem step_faithful {codes : List Nat} {T : Tquic κ} (hp : p.Faithful h codes)
    {use : StreamLife β α → ω → Option (StreamLife β α)} (huse : Lawful h use)
    {e : PartyEvent ω α κ} (hreports : e = .process → p.Reports T codes)
    (hstep : p.step T use e = some q) : q.Faithful h codes := by
  cases e with
  | handle e =>
    simp only [step] at hstep
    split at hstep
    · rename_i hown
      obtain ⟨life, hlife, rfl⟩ := Option.map_eq_some_iff.mp hstep
      apply hp.setLife huse hlife
      rintro a c rfl
      cases hown
    · cases hstep
  | process =>
    simp only [step] at hstep
    split at hstep
    · cases hstep
    · rename_i cmd hnext
      split at hstep
      · cases hstep
        exact hp.execute hnext
      · rename_i n a hanswer
        obtain ⟨life, hlife, rfl⟩ := Option.map_eq_some_iff.mp hstep
        apply (hp.execute hnext).setLife huse hlife
        exact arrives_code fun c hc => hreports rfl cmd n a c hnext hanswer hc
  | gone =>
    obtain ⟨life, hlife, rfl⟩ := Option.map_eq_some_iff.mp hstep
    apply hp.setLife huse hlife
    intro a c heq hc
    cases heq
    rw [gone_code] at hc
    cases hc
  | engine conn =>
    cases hstep
    exact ⟨hp.disciplined, hp.told, hp.answered, hp.returned⟩

theorem step_told {T : Tquic κ} {use : StreamLife β α → ω → Option (StreamLife β α)}
    {e : PartyEvent ω α κ} (hstep : p.step T use e = some q) : ∀ c ∈ p.told, c ∈ q.told := by
  intro c hc
  have hexecute : ∀ cmd, c ∈ (p.execute T cmd).told := by
    intro cmd
    simp only [execute]
    split
    · exact List.mem_append_left _ hc
    · exact hc
  cases e with
  | handle e =>
    simp only [step] at hstep
    split at hstep
    · obtain ⟨life, _, rfl⟩ := Option.map_eq_some_iff.mp hstep
      exact hc
    · cases hstep
  | process =>
    simp only [step] at hstep
    split at hstep
    · cases hstep
    · split at hstep
      · cases hstep
        exact hexecute _
      · obtain ⟨life, _, rfl⟩ := Option.map_eq_some_iff.mp hstep
        exact hexecute _
  | gone =>
    obtain ⟨life, _, rfl⟩ := Option.map_eq_some_iff.mp hstep
    exact hc
  | engine conn =>
    cases hstep
    exact hc

theorem ends_of_code {cmd : ConnCommand Nat} {c : Nat} (htarget : cmd.target = some h)
    (hcode : cmd.shutdownCode = some c) : cmd.Ends h := by
  cases cmd <;> cases hcode <;> cases htarget <;> rfl

theorem Faithful.code_eq {p : Party β α κ} {β' α' : Type} [AnsweredHandle.{u} β' α']
    {q : Party β' α' κ} {h' : Half} {codes : List Nat} (hp : p.Faithful h codes)
    (hq : q.Faithful h' p.told) {cmd : ConnCommand Nat} {c : Nat} {o : Outcome} {d : VarInt}
    (hcmd : .sent cmd ∈ p.life.history) (hc : cmd.shutdownCode = some c)
    (ho : .returned o ∈ q.life.history) (hd : o.peerCode = some d) : d = .fromU32 c := by
  obtain ⟨a, n, ha, hn, rfl⟩ := hq.returned o d ho hd
  obtain ⟨cmd', hcmd', hc'⟩ := hp.told n (hq.answered a n ha hn)
  have hends := ends_of_code (hp.disciplined.own cmd hcmd) hc
  have hends' := ends_of_code (hp.disciplined.own cmd' hcmd') hc'
  have heq := hp.disciplined.flag.unique hcmd hcmd' hends hends'
  cases heq
  cases hc.symm.trans hc'
  rfl

end Party

namespace StreamPair
variable {T : Tquic κ} {s t : StreamPair κ}

/-- Both ends are faithful to what the other engine was told. -/
def Faithful (streamId : Nat) (s : StreamPair κ) : Prop :=
  s.send.Faithful (.send streamId) s.recv.told ∧ s.recv.Faithful (.recv streamId) s.send.told

theorem reach_faithful {sendConnId recvConnId streamId : Nat} {sendConn recvConn : κ}
    (hreach : Reach (step T) (Carries T) (.init sendConnId recvConnId streamId sendConn recvConn) s) :
    s.Faithful streamId := by
  have hsend : Party.Lawful (.send streamId) SendLife.use :=
    ⟨SendLife.use_history, SendLife.use_disciplined⟩
  have hrecv : Party.Lawful (.recv streamId) RecvLife.use :=
    ⟨RecvLife.use_history, RecvLife.use_disciplined⟩
  apply hreach.invariant
  · rintro s e t ⟨hs, hr⟩ hguard hstep
    cases e with
    | send e =>
      obtain ⟨p, hp, rfl⟩ := Option.map_eq_some_iff.mp hstep
      refine ⟨Party.step_faithful hs hsend ?_ hp, hr.mono (Party.step_told hp)⟩
      rintro rfl
      exact hguard
    | recv e =>
      obtain ⟨p, hp, rfl⟩ := Option.map_eq_some_iff.mp hstep
      refine ⟨hs.mono (Party.step_told hp), Party.step_faithful hr hrecv ?_ hp⟩
      rintro rfl
      exact hguard
  · have hempty : ∀ {α : Type} {x : Entry α}, x ∉ ([] : List (Entry α)) := List.not_mem_nil
    exact ⟨⟨SendLife.reach_disciplined (.refl _), fun _ h => absurd h List.not_mem_nil,
        fun _ _ h => absurd h hempty, fun _ _ h => absurd h hempty⟩,
      ⟨RecvLife.reach_disciplined (.refl _), fun _ h => absurd h List.not_mem_nil,
        fun _ _ h => absurd h hempty, fun _ _ h => absurd h hempty⟩⟩

theorem fromU32_eq_iff (c : VarInt) : VarInt.fromU32 c.intoInner = c ↔ c.value < 2 ^ 32 := by
  obtain ⟨v, hv⟩ := c
  simp only [VarInt.fromU32, VarInt.intoInner, VarInt.mk.injEq]
  exact Nat.mod_eq_iff_lt (by decide)

/-- Whatever error code the peer's `read` or `write` returns after a `reset` or `stop`
with `c`: it is `c` if and only if `c` fits into 32 bits. -/
theorem stream_codes_survive {sendConnId recvConnId streamId : Nat} {sendConn recvConn : κ}
    (hreach : Reach (step T) (Carries T) (.init sendConnId recvConnId streamId sendConn recvConn) s) :
    (∀ c d o, .sent (.streamShutdownWrite streamId c.intoInner) ∈ s.send.life.history →
      .returned o ∈ s.recv.life.history → o.peerCode = some d → (d = c ↔ c.value < 2 ^ 32)) ∧
    ∀ c d o, .sent (.streamShutdownRead streamId c.intoInner) ∈ s.recv.life.history →
      .returned o ∈ s.send.life.history → o.peerCode = some d → (d = c ↔ c.value < 2 ^ 32) := by
  obtain ⟨hs, hr⟩ := reach_faithful hreach
  constructor
  · intro c d o hcmd ho hd
    rw [hs.code_eq hr hcmd rfl ho hd]
    exact fromU32_eq_iff c
  · intro c d o hcmd ho hd
    rw [hr.code_eq hs hcmd rfl ho hd]
    exact fromU32_eq_iff c

/-- A reset with any code is reported by a waiting `read`. -/
theorem reset_arrives (c : VarInt) :
    ∃ s, Reach (step Tquic.scripted) (Carries Tquic.scripted)
        (.init 1 2 4 {} { reads := [.error (.streamReset c.intoInner)] }) s ∧
      .sent (.streamShutdownWrite 4 c.intoInner) ∈ s.send.life.history ∧
      .returned (.read (.error (.reset (.fromU32 c.intoInner)))) ∈ s.recv.life.history := by
  refine ⟨_, (((((Reach.refl _).event (.send (.handle (.use (.reset c)))) trivial rfl).event
    (.send .process) ?_ rfl).event (.recv (.handle (.use (.call (.read [0]))))) trivial rfl).event
    (.recv (.handle .poll)) trivial rfl).event (.recv .process) ?_ rfl, ?_, ?_⟩
  · intro cmd n a code hnext hanswer
    cases hnext
    cases hanswer
  · intro cmd n a code hnext hanswer hcode
    cases hnext
    cases hanswer
    cases hcode
    exact List.mem_singleton_self _
  · exact List.mem_cons_self
  · exact List.mem_cons_of_mem _ (List.mem_cons_of_mem _ List.mem_cons_self)

theorem stream_codes_survive_seven :
    ∃ s, Reach (step Tquic.scripted) (Carries Tquic.scripted)
        (.init 1 2 4 {} { reads := [.error (.streamReset (VarInt.fromU32 7).intoInner)] }) s ∧
      ∃ o, .returned o ∈ s.recv.life.history ∧ o.peerCode = some (.fromU32 7) := by
  obtain ⟨s, hs, hsent, hreturned⟩ := reset_arrives (.fromU32 7)
  have heq := ((stream_codes_survive hs).1 (.fromU32 7) _ _ hsent hreturned rfl).mpr (by decide)
  refine ⟨s, hs, _, hreturned, ?_⟩
  rw [← heq]
  rfl

/-- A code of 33 bits, as a hash or a namespaced code has it. -/
def wideCode : VarInt := ⟨2 ^ 32, by decide⟩

/-- `reset(2^32)` is reported as `Reset(0)`. -/
theorem wide_code_lost :
    ¬ ∀ (s : StreamPair Script),
      Reach (step Tquic.scripted) (Carries Tquic.scripted)
        (.init 1 2 4 {} { reads := [.error (.streamReset wideCode.intoInner)] }) s →
      ∀ c d o, .sent (.streamShutdownWrite 4 c.intoInner) ∈ s.send.life.history →
        .returned o ∈ s.recv.life.history → o.peerCode = some d → d = c := by
  intro hall
  obtain ⟨s, hs, hsent, hreturned⟩ := reset_arrives wideCode
  have heq := congrArg VarInt.value (hall s hs wideCode _ _ hsent hreturned rfl)
  revert heq
  decide

end StreamPair

end TokioTquic
