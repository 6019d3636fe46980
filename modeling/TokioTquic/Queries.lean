import TokioTquic.Async.Linear
import TokioTquic.Async.Work
import TokioTquic.Handles

/-!
# Queries of a connection

`rtt()` and the path operations send a command and await the reply to it. They run next
to one another and to every other command on the connection, from any number of tasks.
To their callers the connection is one object to which the commands are applied one
after the other.
-/

namespace TokioTquic
open Async
set_option autoImplicit false

universe u v
variable {κ : Type u} {ρ : Type v}

def ConnCommand.address (respond : ρ) : ConnCommand Unit → ConnCommand ρ
  | .refuseIncoming => .refuseIncoming
  | .closeConnection code reason => .closeConnection code reason
  | .openBiStream _ => .openBiStream respond
  | .openUniStream _ => .openUniStream respond
  | .streamWrite streamId data fin _ => .streamWrite streamId data fin respond
  | .streamRead streamId maxLen _ => .streamRead streamId maxLen respond
  | .streamShutdownRead streamId code => .streamShutdownRead streamId code
  | .streamShutdownWrite streamId code => .streamShutdownWrite streamId code
  | .streamSetPriority streamId urgency => .streamSetPriority streamId urgency
  | .getRtt _ => .getRtt respond
  | .addPath l r _ => .addPath l r respond
  | .abandonPath l r _ => .abandonPath l r respond
  | .migratePath l r _ => .migratePath l r respond
  | .getPathStats l r _ => .getPathStats l r respond
  | .getPaths _ => .getPaths respond

/-- What a command does to the connection, and the reply it sends. -/
def serveConnCommand (T : Tquic κ) (conn : Option κ) (cmd : ConnCommand Unit) :
    Option κ × Option Reply :=
  ((processConnCommand T conn cmd).1, (processConnCommand T conn cmd).2.map Prod.snd)

theorem processConnCommand_address (T : Tquic κ) (conn : Option κ) (cmd : ConnCommand Unit)
    (respond : ρ) :
    processConnCommand T conn (cmd.address respond) =
      ((serveConnCommand T conn cmd).1, (serveConnCommand T conn cmd).2.map fun r => (respond, r)) := by
  cases cmd <;> rfl

inductive QueryResult where
  | rtt (result : Duration)
  | path (result : Except ConnectionError Unit)
  | pathStats (result : Except ConnectionError PathStats)
  | paths (result : Except ConnectionError (List FourTuple))

namespace Query

def request : Query → ConnCommand Unit
  | .rtt => .getRtt ()
  | .addPath l r => .addPath l r ()
  | .abandonPath l r => .abandonPath l r ()
  | .migratePath l r => .migratePath l r ()
  | .getPathStats l r => .getPathStats l r ()
  | .getPaths => .getPaths ()

def answer : Query → Option Reply → QueryResult
  | .rtt, some (.rtt (some estimate)) => .rtt estimate
  | .rtt, _ => .rtt ⟨0, 0⟩
  | .addPath _ _, some (.path result) => .path result
  | .abandonPath _ _, some (.path result) => .path result
  | .migratePath _ _, some (.path result) => .path result
  | .getPathStats _ _, some (.pathStats result) => .pathStats result
  | .getPaths, some (.paths result) => .paths result
  | .addPath _ _, _ => .path (.error .locallyClosed)
  | .abandonPath _ _, _ => .path (.error .locallyClosed)
  | .migratePath _ _, _ => .path (.error .locallyClosed)
  | .getPathStats _ _, _ => .pathStats (.error .locallyClosed)
  | .getPaths, _ => .paths (.error .locallyClosed)

end Query

/-- `sent` counts the commands, which are numbered in this order. `asks` are the queries
that await their reply, `results` what queries returned. -/
structure Queries (κ : Type u) where
  bridge : Bridge κ Nat
  running : Bool
  sent : Nat
  asks : Nat → Option (Query × Option Reply)
  results : List (Nat × Query × QueryResult)
  history : List (Mark (ConnCommand Unit) (Option Reply))

/-- `other` is any command of a handle of the connection besides the queries, `finish` the
end of the bridge thread. -/
inductive QueriesEvent (κ : Type u) where
  | process
  | finish
  | bridge (e : BridgeEvent κ)
  | ask (q : Query)
  | other (cmd : ConnCommand Unit)
  | poll (i : Nat)
  | drop (i : Nat)

namespace Queries

def init (conn : κ) (remoteAddr : SocketAddr) (isServer : Bool) : Queries κ where
  bridge := ⟨some conn, [], .created remoteAddr isServer, []⟩
  running := true
  sent := 0
  asks := fun _ => none
  results := []
  history := []

/-- Once the bridge thread is over the command is dropped, and with it the sender. -/
def sendCmd (s : Queries κ) (cmd : ConnCommand Unit) : Queries κ :=
  { s with
    bridge := if s.running then s.bridge.sendCmd (cmd.address s.sent) else s.bridge
    sent := s.sent + 1
    history := s.history ++ [.called s.sent cmd] }

def deliver (s : Queries κ) : Option (Nat × Reply) → Queries κ
  | some (i, r) =>
    match s.asks i with
    | some (q, none) => { s with asks := Function.update s.asks i (some (q, some r)) }
    | _ => s
  | none => s

def step (T : Tquic κ) (s : Queries κ) : QueriesEvent κ → Option (Queries κ)
  | .process =>
    if s.running then
      (s.bridge.process T).map fun (_, bridge, reply) => { s with bridge := bridge }.deliver reply
    else none
  | .finish => some { s with running := false, bridge := { s.bridge with queue := [] } }
  | .bridge e =>
    if s.running then (s.bridge.step e).map fun bridge => { s with bridge := bridge } else none
  | .ask q =>
    some { s.sendCmd q.request with asks := Function.update s.asks s.sent (some (q, none)) }
  | .other cmd => some (s.sendCmd cmd)
  | .poll i =>
    match s.asks i with
    | some (q, some r) =>
      some { s with
        asks := Function.update s.asks i none
        results := s.results ++ [(i, q, q.answer (some r))]
        history := s.history ++ [.returned i (some r)] }
    | some (q, none) =>
      if s.running then none
      else some { s with
        asks := Function.update s.asks i none
        results := s.results ++ [(i, q, q.answer none)] }
    | none => none
  | .drop i =>
    match s.asks i with
    | some _ => some { s with asks := Function.update s.asks i none }
    | none => none

/-- The engine changes a connection that is there as `engine` allows, and brings none back. -/
def Drift (engine : κ → Option κ → Prop) (conn conn' : Option κ) : Prop :=
  ∃ c, conn = some c ∧ engine c conn'

def Engine (engine : κ → Option κ → Prop) (s : Queries κ) : QueriesEvent κ → Prop
  | .bridge (.engine conn) => Drift engine s.bridge.conn conn
  | _ => True

/-! ## The bridge thread as the server of the connection -/

def addressed : Nat → List (ConnCommand Unit) → List (ConnCommand Nat)
  | _, [] => []
  | n, cmd :: cmds => cmd.address n :: addressed (n + 1) cmds

theorem addressed_snoc (n : Nat) (cmds : List (ConnCommand Unit)) (cmd : ConnCommand Unit) :
    addressed n (cmds ++ [cmd]) = addressed n cmds ++ [cmd.address (n + cmds.length)] := by
  induction cmds generalizing n with
  | nil => rfl
  | cons c cmds ih =>
    simp only [List.cons_append, addressed, ih, List.length_cons]
    rw [Nat.add_assoc, Nat.add_comm 1]

abbrev ConnServer (κ : Type u) := Server (Option κ) (ConnCommand Unit) (Option Reply)

/-- The server has the same connection, the same calls before it and the same history, and
every reply on its way. -/
structure Served (s : Queries κ) (v : ConnServer κ) : Prop where
  object : v.object = s.bridge.conn
  queue : s.running = true → s.bridge.queue = addressed v.served v.queue
  sent : s.sent = v.next
  history : v.history = s.history
  mail : ∀ i q r, s.asks i = some (q, some r) → i < v.served ∧ v.mail i = some (some r)
  waiting : ∀ i q, s.asks i = some (q, none) →
    ∃ k, i = v.served + k ∧ v.queue[k]? = some q.request
  asked : ∀ i q m, s.asks i = some (q, m) → .called i q.request ∈ s.history
  results : ∀ i q a, (i, q, a) ∈ s.results → .called i q.request ∈ s.history ∧
    ((∃ r, .returned i (some r) ∈ s.history ∧ a = q.answer (some r)) ∨
      (s.running = false ∧ v.served ≤ i ∧ a = q.answer none))

theorem served_init (conn : κ) (remoteAddr : SocketAddr) (isServer : Bool) :
    (init conn remoteAddr isServer).Served (Server.init (some conn)) :=
  ⟨rfl, fun _ => rfl, rfl, rfl, by simp [init], by simp [init], by simp [init], by simp [init]⟩

variable {T : Tquic κ} {engine : κ → Option κ → Prop}

theorem update_none {α : Type u} {f : Nat → Option α} {i j : Nat} {x : α}
    (h : Function.update f i none j = some x) : j ≠ i ∧ f j = some x := by
  by_cases hji : j = i
  · subst hji
    simp at h
  · rw [Function.update_of_ne hji] at h
    exact ⟨hji, h⟩

theorem update_some {α : Type u} {f : Nat → Option α} {i j : Nat} {x y : α}
    (h : Function.update f i (some x) j = some y) : j = i ∧ x = y ∨ j ≠ i ∧ f j = some y := by
  by_cases hji : j = i
  · subst hji
    rw [Function.update_self] at h
    exact Or.inl ⟨rfl, Option.some.inj h⟩
  · rw [Function.update_of_ne hji] at h
    exact Or.inr ⟨hji, h⟩

theorem served_sendCmd {s : Queries κ} {v : ConnServer κ} (hs : s.Served v)
    (cmd : ConnCommand Unit) :
    (s.sendCmd cmd).Served
      { v with queue := v.queue ++ [cmd], history := v.history ++ [.called v.next cmd] } where
  object := by
    rw [hs.object]
    simp only [sendCmd]
    split <;> rfl
  queue := by
    intro hrunning
    have hqueue := hs.queue hrunning
    simp only [sendCmd] at hrunning ⊢
    rw [if_pos hrunning, addressed_snoc, ← hqueue, hs.sent]
    rfl
  sent := by
    have hsent := hs.sent
    simp only [sendCmd, Server.next, List.length_append, List.length_singleton] at hsent ⊢
    omega
  history := by simp only [sendCmd, hs.history, hs.sent]
  mail := hs.mail
  waiting := by
    intro i q h
    obtain ⟨k, hk, hq⟩ := hs.waiting i q h
    exact ⟨k, hk, by rw [List.getElem?_append_left (Server.getElem?_lt hq), hq]⟩
  asked := fun i q m h => List.mem_append_left _ (hs.asked i q m h)
  results := by
    intro i q a h
    obtain ⟨hcalled, h⟩ := hs.results i q a h
    refine ⟨List.mem_append_left _ hcalled, h.imp_left ?_⟩
    rintro ⟨r, hreturned, ha⟩
    exact ⟨r, List.mem_append_left _ hreturned, ha⟩

theorem serveConnCommand_request (T : Tquic κ) (conn : Option κ) (q : Query) :
    ∃ r, (serveConnCommand T conn q.request).2 = some r := by
  cases q <;> exact ⟨_, rfl⟩

theorem served_process {s s' : Queries κ} {v : ConnServer κ} (hs : s.Served v)
    (hstep : s.step T .process = some s') :
    ∃ v', v.step (serveConnCommand T) .serve = some v' ∧ s'.Served v' := by
  simp only [step] at hstep
  split at hstep <;> rename_i hrunning
  swap
  · cases hstep
  obtain ⟨⟨cmd, b, reply⟩, hp, rfl⟩ := Option.map_eq_some_iff.mp hstep
  obtain ⟨_, hqueue, _, _, hproc⟩ := Bridge.process_some hp
  have hold := hs.queue hrunning
  cases hv : v.queue with
  | nil =>
    rw [hqueue, hv] at hold
    cases hold
  | cons op ops =>
    rw [hqueue, hv] at hold
    obtain ⟨rfl, hrest⟩ := List.cons.inj hold
    rw [processConnCommand_address, Prod.mk.injEq] at hproc
    obtain ⟨hconn, rfl⟩ := hproc
    have hserve : v.step (serveConnCommand T) .serve = some { v with
        object := (serveConnCommand T v.object op).1
        queue := ops
        served := v.served + 1
        mail := Function.update v.mail v.served (some (serveConnCommand T v.object op).2) } := by
      simp only [Server.step, hv]
    refine ⟨_, hserve, ?_⟩
    have hobject : (serveConnCommand T v.object op).1 = b.conn := by rw [hs.object, hconn]
    have hnext : s.sent = v.served + 1 + ops.length := by
      rw [hs.sent, Server.next, hv, List.length_cons]
      omega
    have hmail : ∀ i q r, s.asks i = some (q, some r) → i < v.served + 1 ∧
        Function.update v.mail v.served (some (serveConnCommand T v.object op).2) i =
          some (some r) := by
      intro i q r h
      obtain ⟨hlt, hm⟩ := hs.mail i q r h
      refine ⟨by omega, ?_⟩
      rw [Function.update_of_ne (by omega), hm]
    -- the query whose command this is, and those behind it
    have hwaiting : ∀ i q, s.asks i = some (q, none) → i = v.served ∧ op = q.request ∨
        ∃ k, i = v.served + 1 + k ∧ ops[k]? = some q.request := by
      intro i q h
      obtain ⟨k, hk, hq⟩ := hs.waiting i q h
      rw [hv] at hq
      cases k with
      | zero => exact Or.inl ⟨hk, Option.some.inj hq⟩
      | succ k => exact Or.inr ⟨k, by omega, hq⟩
    have hresults : ∀ i q a, (i, q, a) ∈ s.results → .called i q.request ∈ s.history ∧
        ((∃ r, .returned i (some r) ∈ s.history ∧ a = q.answer (some r)) ∨
          (s.running = false ∧ v.served + 1 ≤ i ∧ a = q.answer none)) := by
      intro i q a h
      obtain ⟨hcalled, h⟩ := hs.results i q a h
      exact ⟨hcalled, h.imp_right fun h => absurd hrunning (by simp [h.1])⟩
    cases hask : s.asks v.served with
    | none =>
      have hbehind : ∀ i q, s.asks i = some (q, none) →
          ∃ k, i = v.served + 1 + k ∧ ops[k]? = some q.request := by
        intro i q h
        refine (hwaiting i q h).resolve_left ?_
        rintro ⟨rfl, _⟩
        rw [hask] at h
        cases h
      cases (serveConnCommand T s.bridge.conn op).2 with
      | none =>
        exact ⟨hobject, fun _ => hrest, hnext, hs.history, hmail, hbehind, hs.asked, hresults⟩
      | some r =>
        simp only [Option.map_some, deliver, hask]
        exact ⟨hobject, fun _ => hrest, hnext, hs.history, hmail, hbehind, hs.asked, hresults⟩
    | some ask =>
      obtain ⟨q, m⟩ := ask
      cases m with
      | some r =>
        obtain ⟨hlt, _⟩ := hs.mail _ q r hask
        omega
      | none =>
        have hop : op = q.request := by
          rcases hwaiting _ q hask with ⟨_, hop⟩ | ⟨k, hk, _⟩
          · exact hop
          · omega
        obtain ⟨r, hreply⟩ := serveConnCommand_request T s.bridge.conn q
        rw [← hop] at hreply
        simp only [hreply, Option.map_some, deliver, hask]
        refine ⟨hobject, fun _ => hrest, hnext, hs.history, ?_, ?_, ?_, hresults⟩
        · intro i q' r' h
          rcases update_some h with ⟨rfl, heq⟩ | ⟨_, h⟩
          · obtain ⟨rfl, rfl⟩ : q = q' ∧ r = r' := by simpa using heq
            refine ⟨by simp, ?_⟩
            simp only [Function.update_self, hs.object, hreply]
          · exact hmail i q' r' h
        · intro i q' h
          rcases update_some h with ⟨_, heq⟩ | ⟨hne, h⟩
          · cases heq
          · exact (hwaiting i q' h).resolve_left fun h => hne h.1
        · intro i q' m h
          rcases update_some h with ⟨rfl, heq⟩ | ⟨_, h⟩
          · cases heq
            exact hs.asked _ q none hask
          · exact hs.asked i q' m h

theorem served_ask {s : Queries κ} {v : ConnServer κ} (hs : s.Served v) (q : Query) :
    ({ s.sendCmd q.request with asks := Function.update s.asks s.sent (some (q, none)) } :
      Queries κ).Served
      { v with
        queue := v.queue ++ [q.request]
        history := v.history ++ [.called v.next q.request] } := by
  have hsent := served_sendCmd hs q.request
  refine ⟨hsent.object, hsent.queue, hsent.sent, hsent.history, ?_, ?_, ?_, hsent.results⟩
  · intro i q' r h
    rcases update_some h with ⟨_, heq⟩ | ⟨_, h⟩
    · cases heq
    · exact hsent.mail i q' r h
  · intro i q' h
    rcases update_some h with ⟨rfl, heq⟩ | ⟨_, h⟩
    · cases heq
      exact ⟨v.queue.length, hs.sent, by simp⟩
    · exact hsent.waiting i q' h
  · intro i q' m h
    rcases update_some h with ⟨rfl, heq⟩ | ⟨_, h⟩
    · cases heq
      exact List.mem_append_right _ List.mem_cons_self
    · exact hsent.asked i q' m h

theorem served_poll {s : Queries κ} {v : ConnServer κ} {i : Nat} {q : Query} {r : Reply}
    (hs : s.Served v) (h : s.asks i = some (q, some r)) :
    ∃ v', v.step (serveConnCommand T) (.take i) = some v' ∧
      ({ s with
        asks := Function.update s.asks i none
        results := s.results ++ [(i, q, q.answer (some r))]
        history := s.history ++ [.returned i (some r)] } : Queries κ).Served v' := by
  obtain ⟨_, hm⟩ := hs.mail i q r h
  have htake : v.step (serveConnCommand T) (.take i) = some { v with
      mail := Function.update v.mail i none
      history := v.history ++ [.returned i (some r)] } := by
    simp only [Server.step, hm]
  refine ⟨_, htake, hs.object, hs.queue, hs.sent, ?_, ?_, ?_, ?_, ?_⟩
  · simp only [hs.history]
  · intro j q' r' hj
    obtain ⟨hne, hj⟩ := update_none hj
    obtain ⟨hlt, hm'⟩ := hs.mail j q' r' hj
    refine ⟨hlt, ?_⟩
    simp only [Function.update_of_ne hne, hm']
  · exact fun j q' hj => hs.waiting j q' (update_none hj).2
  · exact fun j q' m hj => List.mem_append_left _ (hs.asked j q' m (update_none hj).2)
  · intro j q' a hj
    rcases List.mem_append.mp hj with hj | hj
    · obtain ⟨hcalled, hj⟩ := hs.results j q' a hj
      refine ⟨List.mem_append_left _ hcalled, hj.imp_left ?_⟩
      rintro ⟨r', hreturned, ha⟩
      exact ⟨r', List.mem_append_left _ hreturned, ha⟩
    · cases List.mem_singleton.mp hj
      exact ⟨List.mem_append_left _ (hs.asked i q (some r) h),
        Or.inl ⟨r, List.mem_append_right _ List.mem_cons_self, rfl⟩⟩

theorem served_lost {s : Queries κ} {v : ConnServer κ} {i : Nat} {q : Query} (hs : s.Served v)
    (hrunning : s.running = false) (h : s.asks i = some (q, none)) :
    ({ s with
      asks := Function.update s.asks i none
      results := s.results ++ [(i, q, q.answer none)] } : Queries κ).Served v := by
  refine ⟨hs.object, hs.queue, hs.sent, hs.history, ?_, ?_, ?_, ?_⟩
  · exact fun j q' r hj => hs.mail j q' r (update_none hj).2
  · exact fun j q' hj => hs.waiting j q' (update_none hj).2
  · exact fun j q' m hj => hs.asked j q' m (update_none hj).2
  · intro j q' a hj
    rcases List.mem_append.mp hj with hj | hj
    · exact hs.results j q' a hj
    · cases List.mem_singleton.mp hj
      obtain ⟨k, hk, _⟩ := hs.waiting i q h
      exact ⟨hs.asked i q none h, Or.inr ⟨hrunning, by omega, rfl⟩⟩

theorem served_drop {s : Queries κ} {v : ConnServer κ} (hs : s.Served v) (i : Nat) :
    ({ s with asks := Function.update s.asks i none } : Queries κ).Served v :=
  ⟨hs.object, hs.queue, hs.sent, hs.history,
    fun j q r hj => hs.mail j q r (update_none hj).2,
    fun j q hj => hs.waiting j q (update_none hj).2,
    fun j q m hj => hs.asked j q m (update_none hj).2, hs.results⟩

theorem served_finish {s : Queries κ} {v : ConnServer κ} (hs : s.Served v) :
    ({ s with running := false, bridge := { s.bridge with queue := [] } } : Queries κ).Served v :=
  ⟨hs.object, nofun, hs.sent, hs.history, hs.mail, hs.waiting, hs.asked, fun i q a h =>
    ⟨(hs.results i q a h).1, (hs.results i q a h).2.imp_right fun h => ⟨rfl, h.2⟩⟩⟩

theorem served_step {s s' : Queries κ} {e : QueriesEvent κ} {v : ConnServer κ} (hs : s.Served v)
    (hengine : s.Engine engine e) (hstep : s.step T e = some s') :
    ∃ v', Reach (Server.step (serveConnCommand T)) (Server.Drifts (Drift engine)) v v' ∧
      s'.Served v' := by
  cases e with
  | process =>
    obtain ⟨v', hv', hserved⟩ := served_process hs hstep
    exact ⟨v', .single (e := .serve) trivial hv', hserved⟩
  | finish =>
    cases hstep
    exact ⟨v, .refl v, served_finish hs⟩
  | bridge e =>
    simp only [step] at hstep
    split at hstep <;> rename_i hrunning
    swap
    · cases hstep
    obtain ⟨b, hb, rfl⟩ := Option.map_eq_some_iff.mp hstep
    cases e with
    | engine conn =>
      obtain ⟨_, _, rfl⟩ := Bridge.step_engine hb
      have hdrift : v.step (serveConnCommand T) (.drift conn) = some { v with object := conn } := rfl
      refine ⟨_, .single ?_ hdrift, rfl, hs.queue, hs.sent, hs.history, hs.mail, hs.waiting,
        hs.asked, hs.results⟩
      show Drift engine v.object conn
      rw [hs.object]
      exact hengine
    | callback cb =>
      obtain ⟨_, rfl⟩ := Bridge.step_callback hb
      exact ⟨v, .refl v, hs.object, hs.queue, hs.sent, hs.history, hs.mail, hs.waiting, hs.asked,
        hs.results⟩
    | exec =>
      obtain ⟨op, todo, _, rfl⟩ := Bridge.step_exec hb
      exact ⟨v, .refl v, hs.object, hs.queue, hs.sent, hs.history, hs.mail, hs.waiting, hs.asked,
        hs.results⟩
  | ask q =>
    cases hstep
    have hcall : v.step (serveConnCommand T) (.call q.request) = some { v with
        queue := v.queue ++ [q.request]
        history := v.history ++ [.called v.next q.request] } := rfl
    exact ⟨_, .single (e := .call _) trivial hcall, served_ask hs q⟩
  | other cmd =>
    cases hstep
    have hcall : v.step (serveConnCommand T) (.call cmd) = some { v with
        queue := v.queue ++ [cmd]
        history := v.history ++ [.called v.next cmd] } := rfl
    exact ⟨_, .single (e := .call _) trivial hcall, served_sendCmd hs cmd⟩
  | poll i =>
    simp only [step] at hstep
    split at hstep
    · cases hstep
      rename_i q r hask
      obtain ⟨v', hv', hserved⟩ := served_poll (T := T) hs hask
      exact ⟨v', .single (e := .take i) trivial hv', hserved⟩
    · split at hstep <;> cases hstep
      rename_i q hask hrunning
      exact ⟨v, .refl v, served_lost hs (by simpa using hrunning) hask⟩
    · cases hstep
  | drop i =>
    simp only [step] at hstep
    split at hstep <;> cases hstep
    exact ⟨v, .refl v, served_drop hs i⟩

theorem served_reach {conn : κ} {remoteAddr : SocketAddr} {isServer : Bool} {s : Queries κ}
    (hs : Reach (step T) (Engine engine) (init conn remoteAddr isServer) s) :
    ∃ v, Reach (Server.step (serveConnCommand T)) (Server.Drifts (Drift engine))
      (Server.init (some conn)) v ∧ s.Served v := by
  induction hs with
  | refl => exact ⟨_, .refl _, served_init conn remoteAddr isServer⟩
  | tail _ hengine hstep ih =>
    obtain ⟨v, hv, hserved⟩ := ih
    obtain ⟨v', hv', hserved'⟩ := served_step hserved hengine hstep
    exact ⟨v', hv.trans hv', hserved'⟩

/-- The commands of a connection take effect one after the other, each between its call and
its return. Every query returns what the connection answered at that moment; only when the
bridge thread is over one returns without, and then its command had no effect. -/
theorem queries_linearizable (T : Tquic κ) (engine : κ → Option κ → Prop) (conn : κ)
    (remoteAddr : SocketAddr) (isServer : Bool) (s : Queries κ)
    (hs : Reach (step T) (Engine engine) (init conn remoteAddr isServer) s) :
    ∃ l, Linearizes (serveConnCommand T) (Drift engine) (some conn) s.history l s.bridge.conn ∧
      ∀ i q a, (i, q, a) ∈ s.results →
        (∃ r, l[i]? = some (q.request, some r) ∧ a = q.answer (some r)) ∨
          (s.running = false ∧ l[i]? = none ∧ a = q.answer none) := by
  obtain ⟨v, hv, hserved⟩ := served_reach hs
  obtain ⟨l, hlength, hl⟩ := Server.linearizable hv
  rw [hserved.history, hserved.object] at hl
  refine ⟨l, hl, fun i q a h => ?_⟩
  obtain ⟨hcalled, ⟨r, hreturned, ha⟩ | ⟨hrunning, hle, ha⟩⟩ := hserved.results i q a h
  · obtain ⟨op, hop⟩ := hl.returned i (some r) hreturned
    obtain rfl := (hl.called i op (some r) hop q.request).mp hcalled
    exact Or.inl ⟨r, hop, ha⟩
  · exact Or.inr ⟨hrunning, List.getElem?_eq_none (by omega), ha⟩

/-- Keeps the paths, and carries no data. -/
def multipath : Tquic (List FourTuple) where
  close paths _ _ _ := paths
  streamBidiNew paths := (.error .done, paths)
  streamUniNew paths := (.error .done, paths)
  streamWrite paths _ _ _ := (.error .done, paths)
  streamRead paths _ _ := (.error .done, paths)
  streamShutdown paths _ _ _ := paths
  streamSetPriority paths _ _ _ := paths
  pathsIter paths := paths
  getPathStats _ _ _ := .error .done
  addPath paths l r := (.ok (), paths ++ [⟨l, r⟩])
  abandonPath paths l r := (.ok (), paths.filter (· ≠ ⟨l, r⟩))
  migratePath paths _ _ := (.ok (), paths)
  displayError _ := "error"

/-- `paths()` sees the path of the `add_path` called before it, whichever returns first. -/
theorem queries_linearizable_paths :
    ∃ s, Reach (step multipath) (Engine fun _ _ => False) (init [] .unspecified false) s ∧
      s.results = [(1, .getPaths, .paths (.ok [⟨.unspecified, .unspecified⟩])),
        (2, .getPaths, .paths (.error .locallyClosed)),
        (0, .addPath .unspecified .unspecified, .path (.ok ()))] ∧
      ∃ l, Linearizes (serveConnCommand multipath) (Drift fun _ _ => False) (some []) s.history l
        s.bridge.conn := by
  obtain ⟨s, hrun, hresults⟩ :
      ∃ s, run (step multipath) (init [] .unspecified false)
          [.ask (.addPath .unspecified .unspecified), .ask .getPaths, .process, .process, .poll 1,
            .ask .getPaths, .finish, .poll 2, .poll 0] = some s ∧
        s.results = [(1, .getPaths, .paths (.ok [⟨.unspecified, .unspecified⟩])),
          (2, .getPaths, .paths (.error .locallyClosed)),
          (0, .addPath .unspecified .unspecified, .path (.ok ()))] :=
    ⟨_, rfl, rfl⟩
  have hs : Reach (step multipath) (Engine fun _ _ => False) (init [] .unspecified false) s := by
    apply reach_of_run _ hrun
    simp [Engine]
  obtain ⟨l, hl, _⟩ := queries_linearizable multipath _ [] .unspecified false s hs
  exact ⟨s, hs, hresults, l, hl⟩

end Queries

end TokioTquic
