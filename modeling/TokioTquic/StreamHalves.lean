import TokioTquic.HandleNames

/-!
# Who stands for a stream half

An open future that holds the id of its stream stands for all its halves, a
stream handle that has not ended its half for that half. What is done with such
a value either leaves a value behind that stands for the half, or queues the
command that ends it. The exception is an open future that is dropped.
-/

namespace TokioTquic
open Async
set_option autoImplicit false

universe u
variable {κ : Type u} {χ ψ : Type}

/-- The local halves of a stream that this side opened. -/
def Dir.halves (streamId : Nat) : Dir → List Half
  | .bi => [.send streamId, .recv streamId]
  | .uni => [.send streamId]

/-- The value stands for this half of a stream of the connection at `index`. -/
def Value.Owns (index : Nat) (half : Half) : Value → Prop
  | .openStream self => self.connId = index ∧
      ∃ streamId, self.rx = some (some (.ok streamId)) ∧ half ∈ self.dir.halves streamId
  | .sendStream self => self.connId = index ∧ self.finished = false ∧ half = .send self.streamId
  | .recvStream self _ => self.connId = index ∧ self.allDataRead = false ∧ half = .recv self.streamId
  | _ => False

/-- The reply that waits for this `RecvStream` carries the peer's FIN. -/
def Value.AtEnd : Value → Prop
  | .recvStream _ (some (_, some (.ok (_, true)))) => True
  | _ => False

def ConnCommand.Ends {ρ : Type u} (half : Half) : ConnCommand ρ → Prop
  | .streamWrite streamId _ fin _ => fin = true ∧ half = .send streamId
  | .streamShutdownWrite streamId _ => half = .send streamId
  | .streamShutdownRead streamId _ => half = .recv streamId
  | _ => False

/-- What becomes of a value whose operation gives the number `next` to a request. -/
inductive Value.Later (next : Nat) : Value → Value → Prop where
  | same (v : Value) : Later next v v
  | asked (dir : Dir) (connId : Nat) :
      Later next (.openStream ⟨dir, connId, none⟩) (.openStream ⟨dir, connId, some none⟩)
  | sent (self self' : SendStream) : Later next (.sendStream self) (.sendStream self')
  | received {self self' : RecvStream}
      {rx rx' : Option (Nat × Option (Except ReadError (Bytes × Bool)))} :
      self'.connId = self.connId → self'.streamId = self.streamId →
        (∀ n, rx' = some (n, none) → n = next) →
        Later next (.recvStream self rx) (.recvStream self' rx')
  | accepted (incomingId : Nat) (remoteAddr : SocketAddr) (self : Connecting) :
      Later next (.incoming incomingId remoteAddr) (.connecting self)
  | identified (self self' : Connecting) : Later next (.connecting self) (.connecting self')
  | looked (self self' : AcceptStream) : Later next (.acceptStream self) (.acceptStream self')

namespace Handles

/-- A value stands for the half, or the command that ends it is queued. -/
def Holds (s : Handles κ χ ψ) (index : Nat) (half : Half) : Prop :=
  (∃ id h, s.values id = some h ∧ h.value.Owns index half ∧ ¬ h.value.AtEnd) ∨
    ∃ origin cmd, (origin, .onConn index cmd) ∈ s.queue ∧ cmd.Ends half

/-- Whoever asked for this stream, if it is still there, waits for it. -/
def Opens (s : Handles κ χ ψ) (index : Nat) (dir : Dir) (id : Nat) : Prop :=
  id < s.next ∧ ∀ h, s.values id = some h → h.value = .openStream ⟨dir, index, some none⟩

/-- A queued request fits the value that may wait for it. -/
def Fits (s : Handles κ χ ψ) (index : Nat) : ConnCommand Respond → Prop
  | .openBiStream (id, _) => s.Opens index .bi id
  | .openUniStream (id, _) => s.Opens index .uni id
  | .streamRead streamId _ (id, n) => id < s.next ∧ n < s.next ∧
      ∀ h self, s.values id = some h → h.value = .recvStream self (some (n, none)) →
        self.connId = index ∧ self.streamId = streamId
  | _ => True

def opener : BridgeCommand χ ψ Respond → Option Nat
  | .onConn _ (.openBiStream (id, _)) | .onConn _ (.openUniStream (id, _)) => some id
  | _ => none

def openers (s : Handles κ χ ψ) : List Nat := s.queue.filterMap fun x => opener x.2

/-- What an operation on a value `v` named `id` does for the streams. -/
structure Used (s t : Handles κ χ ψ) (id : Nat) (v : Value) : Prop where
  later : ∀ h, t.values id = some h → v.Later s.next h.value
  queue : t.queue = s.queue ∨ ∃ origin cmd, t.queue = s.queue ++ [(origin, cmd)] ∧
    (∀ index c, cmd = .onConn index c → t.Fits index c) ∧
    ∀ i, opener cmd = some i → i = id ∧ ∃ dir connId, v = .openStream ⟨dir, connId, none⟩
  holds : ∀ index half, v.Owns index half → ¬ v.AtEnd → t.Holds index half

variable {s t : Handles κ χ ψ} {id : Nat}

theorem holds_value {h : Handle} {index : Nat} {half : Half} (hh : s.values id = some h)
    (howns : h.value.Owns index half) (hend : ¬ h.value.AtEnd) : s.Holds index half :=
  Or.inl ⟨id, h, hh, howns, hend⟩

theorem holds_command {origin : Option Nat} {index : Nat} {half : Half}
    {cmd : ConnCommand Respond} (hcmd : (origin, .onConn index cmd) ∈ s.queue)
    (hends : cmd.Ends half) : s.Holds index half :=
  Or.inr ⟨origin, cmd, hcmd, hends⟩

theorem Used.quiet {h : Handle} (hh : s.values id = some h) (hvalue : t.values id = s.values id)
    (hqueue : t.queue = s.queue) : Used s t id h.value where
  later := fun h' hh' => by
    rw [hvalue, hh] at hh'
    cases hh'
    exact .same _
  queue := Or.inl hqueue
  holds := fun _ _ howns hend => holds_value (hvalue.trans hh) howns hend

theorem Used.other {v : Value} (hnone : ∀ index half, ¬ v.Owns index half)
    (hlater : ∀ h, t.values id = some h → v.Later s.next h.value)
    (hqueue : t.queue = s.queue ∨ ∃ origin cmd, t.queue = s.queue ++ [(origin, cmd)] ∧
      (∀ index c, cmd = .onConn index c → t.Fits index c) ∧ opener cmd = none) :
    Used s t id v where
  later := hlater
  queue := by
    obtain h | ⟨origin, cmd, h, hfits, hopener⟩ := hqueue
    · exact Or.inl h
    · exact Or.inr ⟨origin, cmd, h, hfits, fun i hi => by simp [hopener] at hi⟩
  holds := fun index half howns => absurd howns (hnone index half)

@[simp] theorem setValue_values (s : Handles κ χ ψ) (id i : Nat) (h : Option Handle) :
    (s.setValue id h).values i = if i = id then h else s.values i := by
  simp [setValue, Function.update_apply]

@[simp] theorem send_values (s : Handles κ χ ψ) (origin : Option Nat) (connId : Nat)
    (cmd : ConnCommand Respond) : (s.send origin connId cmd).values = s.values := rfl

theorem add_values (s : Handles κ χ ψ) (g : Handle) (i : Nat) :
    (s.add g).values i = if i = s.next then some g else s.values i := by
  simp [add]

theorem add_values_lt {s : Handles κ χ ψ} {i : Nat} (hi : i < s.next) (g : Handle) :
    (s.add g).values i = s.values i := by
  rw [add_values, if_neg (Nat.ne_of_lt hi)]

/-! ## The open futures -/

theorem addHalves_frame (s : Handles κ χ ψ) (origin : Option Nat) (connId streamId : Nat)
    (send recv : Bool) :
    (s.addHalves origin connId streamId send recv).queue = s.queue ∧
      ∀ i, i < s.next → (s.addHalves origin connId streamId send recv).values i = s.values i := by
  cases send <;> cases recv
  · exact ⟨rfl, fun _ _ => rfl⟩
  · exact ⟨rfl, fun i hi => add_values_lt hi _⟩
  · exact ⟨rfl, fun i hi => add_values_lt hi _⟩
  · refine ⟨rfl, fun i hi => ?_⟩
    exact (add_values_lt (Nat.lt_succ_of_lt hi) _).trans (add_values_lt hi _)

theorem addHalves_holds (s : Handles κ χ ψ) (origin : Option Nat) (connId streamId : Nat)
    (dir : Dir) {half : Half} (hhalf : half ∈ dir.halves streamId) :
    (s.addHalves origin connId streamId true (dir == Dir.bi)).Holds connId half := by
  have hsend : ∀ recv : Bool, (s.addHalves origin connId streamId true recv).values s.next =
      some ⟨origin, .sendStream ⟨connId, streamId, false⟩⟩ := by
    intro recv
    cases recv <;> simp [addHalves, add]
  have hrecv : (s.addHalves origin connId streamId true true).values (s.next + 1) =
      some ⟨origin, .recvStream ⟨connId, streamId, false⟩ none⟩ := by
    simp [addHalves, add]
  cases dir with
  | bi =>
    rcases List.mem_pair.mp hhalf with rfl | rfl
    · exact holds_value (hsend _) ⟨rfl, rfl, rfl⟩ (fun h => h)
    · exact holds_value hrecv ⟨rfl, rfl, rfl⟩ (fun h => h)
  | uni =>
    obtain rfl := List.mem_singleton.mp hhalf
    exact holds_value (hsend _) ⟨rfl, rfl, rfl⟩ (fun h => h)

theorem pollOpen_used (hid : id < s.next) {origin : Option Nat} {self : OpenStream}
    (hh : s.values id = some ⟨origin, .openStream self⟩) :
    Used s (s.pollOpen id origin self) id (.openStream self) := by
  rcases self with ⟨dir, connId, rx⟩
  have hgone : ∀ h, (s.setValue id none).values id = some h →
      (Value.openStream ⟨dir, connId, rx⟩).Later s.next h.value := by
    intro h hh'
    simp at hh'
  rcases rx with _ | _ | ⟨_ | streamId⟩
  · have hnone : ∀ index half, ¬ (Value.openStream ⟨dir, connId, none⟩).Owns index half := by
      rintro index half ⟨_, streamId, hrx, _⟩
      cases hrx
    simp only [pollOpen]
    split
    · exact .other hnone hgone (Or.inl rfl)
    · refine ⟨fun h hh' => ?_, Or.inr ⟨_, _, rfl, ?_, ?_⟩, fun index half howns =>
        absurd howns (hnone index half)⟩
      · obtain rfl : ⟨origin, .openStream ⟨dir, connId, some none⟩⟩ = h := by simpa using hh'
        exact .asked dir connId
      · intro index c hc
        have hopens : ∀ cmd, ((s.setValue id (some ⟨origin, .openStream
            ⟨dir, connId, some none⟩⟩)).send origin connId cmd).Opens connId dir id := by
          intro cmd
          refine ⟨Nat.lt_succ_of_lt hid, fun h hh' => ?_⟩
          obtain rfl : ⟨origin, .openStream ⟨dir, connId, some none⟩⟩ = h := by simpa using hh'
          rfl
        cases hc
        cases dir
        · exact hopens _
        · exact hopens _
      · intro i hi
        have hi' : i = id := by cases dir <;> simpa [opener, eq_comm] using hi
        exact ⟨hi', dir, connId, rfl⟩
  · exact .quiet hh rfl rfl
  · refine .other ?_ hgone (Or.inl rfl)
    rintro index half ⟨_, streamId, hrx, _⟩
    cases hrx
  · obtain ⟨hqueue, hvalues⟩ := (s.setValue id none).addHalves_frame origin connId streamId true
      (dir == Dir.bi)
    refine ⟨fun h hh' => ?_, Or.inl hqueue, ?_⟩
    · rw [pollOpen, hvalues id hid] at hh'
      simp at hh'
    · rintro index half ⟨rfl, streamId', hrx, hhalf⟩ _
      cases hrx
      exact addHalves_holds _ origin _ streamId dir hhalf

/-! ## The stream handles -/

theorem Used.commanded {v : Value} {origin : Option Nat} {connId : Nat}
    {cmd : ConnCommand Respond} {s₁ : Handles κ χ ψ} (hqueue : s₁.queue = s.queue)
    (hfits : (s₁.send origin connId cmd).Fits connId cmd)
    (hopener : opener (.onConn connId cmd : BridgeCommand χ ψ Respond) = none)
    (hlater : ∀ h, s₁.values id = some h → v.Later s.next h.value)
    (hholds : ∀ index half, v.Owns index half → ¬ v.AtEnd →
      (s₁.send origin connId cmd).Holds index half) :
    Used s (s₁.send origin connId cmd) id v where
  later := hlater
  queue := by
    refine Or.inr ⟨origin, .onConn connId cmd, by simp [send, hqueue], ?_, ?_⟩
    · intro index c hc
      cases hc
      exact hfits
    · intro i hi
      simp [hopener] at hi
  holds := hholds

theorem send_ends (s₁ : Handles κ χ ψ) (origin : Option Nat) {connId index : Nat}
    {cmd : ConnCommand Respond} {half : Half} (hconn : connId = index) (hends : cmd.Ends half) :
    (s₁.send origin connId cmd).Holds index half := by
  subst hconn
  exact Or.inr ⟨origin, cmd, by simp [send], hends⟩

theorem finish_used {origin : Option Nat} {self : SendStream}
    (hh : s.values id = some ⟨origin, .sendStream self⟩) :
    Used s (s.finish id origin self) id (.sendStream self) := by
  unfold finish
  split
  · exact .quiet hh rfl rfl
  · rename_i self' hfinish
    refine .commanded rfl trivial rfl (fun h hh' => ?_) ?_
    · obtain rfl : ⟨origin, .sendStream self'⟩ = h := by simpa using hh'
      exact .sent self self'
    · rintro index half ⟨hconn, _, rfl⟩ _
      exact send_ends _ origin hconn ⟨rfl, rfl⟩

theorem stop_used {origin : Option Nat} {self : RecvStream}
    {rx : Option (Nat × Option (Except ReadError (Bytes × Bool)))} (errorCode : VarInt)
    (hh : s.values id = some ⟨origin, .recvStream self rx⟩) :
    Used s (s.stop id origin self errorCode) id (.recvStream self rx) := by
  unfold stop
  split
  · exact .quiet hh rfl rfl
  · rename_i self' code hstop
    have hself : self' = { self with allDataRead := true } := by
      unfold RecvStream.stop at hstop
      split at hstop
      · cases hstop
      · exact (Prod.mk.inj (Except.ok.inj hstop)).1.symm
    subst hself
    refine .commanded rfl trivial rfl (fun h hh' => ?_) ?_
    · obtain rfl : ⟨origin, .recvStream { self with allDataRead := true } none⟩ = h := by
        simpa using hh'
      exact .received rfl rfl nofun
    · rintro index half ⟨hconn, _, rfl⟩ _
      exact send_ends _ origin hconn rfl

theorem send_clear (s : Handles κ χ ψ) (id : Nat) (h : Option Handle) (origin : Option Nat)
    (connId : Nat) (cmd : ConnCommand Respond) :
    ((s.setValue id h).send origin connId cmd).setValue id none =
      (s.setValue id none).send origin connId cmd := by
  simp [setValue, send]

theorem dropSend_used {origin : Option Nat} {self : SendStream} :
    Used s (s.dropValue id origin (.sendStream self)) id (.sendStream self) := by
  simp only [dropValue, finish]
  split
  · rename_i e hfinish
    refine .other ?_ (fun h hh' => by simp at hh') (Or.inl rfl)
    rintro index half ⟨_, hopen, _⟩
    simp [SendStream.finish, hopen] at hfinish
  · rw [send_clear]
    refine .commanded rfl trivial rfl (fun h hh' => by simp at hh') ?_
    rintro index half ⟨hconn, _, rfl⟩ _
    exact send_ends _ origin hconn ⟨rfl, rfl⟩

theorem dropRecv_used {origin : Option Nat} {self : RecvStream}
    {rx : Option (Nat × Option (Except ReadError (Bytes × Bool)))} :
    Used s (s.dropValue id origin (.recvStream self rx)) id (.recvStream self rx) := by
  simp only [dropValue, stop]
  split
  · rename_i e hstop
    refine .other ?_ (fun h hh' => by simp at hh') (Or.inl rfl)
    rintro index half ⟨_, hopen, _⟩
    simp [RecvStream.stop, hopen] at hstop
  · rw [send_clear]
    refine .commanded rfl trivial rfl (fun h hh' => by simp at hh') ?_
    rintro index half ⟨hconn, _, rfl⟩ _
    exact send_ends _ origin hconn rfl

theorem useSend_used {origin : Option Nat} {self : SendStream} {op : Op}
    (hh : s.values id = some ⟨origin, .sendStream self⟩)
    (hstep : s.useSend id origin self op = some t) : Used s t id (.sendStream self) := by
  have hsame : ∀ cmd, (s.send origin self.connId cmd).Fits self.connId cmd →
      opener (.onConn self.connId cmd : BridgeCommand χ ψ Respond) = none →
      Used s (s.send origin self.connId cmd) id (.sendStream self) := by
    intro cmd hfits hopener
    refine .commanded rfl hfits hopener (fun h hh' => ?_) fun index half howns hend =>
      holds_value hh howns hend
    rw [hh] at hh'
    cases hh'
    exact .same _
  cases op <;> simp only [useSend] at hstep
  case write data =>
    split at hstep <;> cases hstep
    · exact .quiet hh rfl rfl
    · exact hsame _ trivial rfl
  case finish =>
    cases hstep
    exact finish_used hh
  case reset errorCode =>
    split at hstep <;> cases hstep
    · exact .quiet hh rfl rfl
    · rename_i self' code _
      refine .commanded rfl trivial rfl (fun h hh' => ?_) ?_
      · obtain rfl : ⟨origin, .sendStream self'⟩ = h := by simpa using hh'
        exact .sent self self'
      · rintro index half ⟨hconn, _, rfl⟩ _
        exact send_ends _ origin hconn rfl
  case setPriority priority =>
    split at hstep <;> cases hstep
    · exact .quiet hh rfl rfl
    · exact hsame _ trivial rfl
  all_goals cases hstep

theorem onReply_open {self : RecvStream} {buf : Bytes}
    {reply : Except ReadError (Bytes × Bool)} (hreply : ∀ data, reply ≠ .ok (data, true)) :
    (self.onReply buf (some reply)).1 = self := by
  unfold RecvStream.onReply
  split
  · rfl
  · rfl
  · rename_i data fin heq
    cases heq
    cases fin with
    | true => exact absurd rfl (hreply data)
    | false =>
      split
      · rfl
      · rfl

theorem onReply_ids (self : RecvStream) (buf : Bytes)
    (reply : Option (Except ReadError (Bytes × Bool))) :
    (self.onReply buf reply).1.connId = self.connId ∧
      (self.onReply buf reply).1.streamId = self.streamId := by
  unfold RecvStream.onReply
  split
  · exact ⟨rfl, rfl⟩
  · exact ⟨rfl, rfl⟩
  · split
    · exact ⟨rfl, rfl⟩
    · simp only
      split <;> exact ⟨rfl, rfl⟩

theorem useRecv_used (hid : id < s.next) {origin : Option Nat} {self : RecvStream}
    {rx : Option (Nat × Option (Except ReadError (Bytes × Bool)))} {op : Op}
    (hh : s.values id = some ⟨origin, .recvStream self rx⟩)
    (hstep : s.useRecv id origin self rx op = some t) : Used s t id (.recvStream self rx) := by
  have hread : ∀ maxLen rx', (∀ n reply, rx' = some (n, reply) → n = s.next ∧ reply = none) →
      Used s ((s.setValue id (some ⟨origin, .recvStream self rx'⟩)).send origin self.connId
        (.streamRead self.streamId maxLen (id, s.next))) id (.recvStream self rx) := by
    intro maxLen rx' hrx
    refine .commanded rfl ⟨Nat.lt_succ_of_lt hid, Nat.lt_succ_self _, ?_⟩ rfl (fun h hh' => ?_) ?_
    · intro h self' hh' hself
      obtain rfl : ⟨origin, .recvStream self rx'⟩ = h := by simpa using hh'
      cases hself
      exact ⟨rfl, rfl⟩
    · obtain rfl : ⟨origin, .recvStream self rx'⟩ = h := by simpa using hh'
      exact .received rfl rfl fun n hn => (hrx n none hn).1
    · intro index half howns _
      refine Or.inl ⟨id, ⟨origin, .recvStream self rx'⟩, by simp, howns, ?_⟩
      rcases rx' with _ | ⟨n, reply⟩
      · exact fun h => h
      · obtain rfl := (hrx n reply rfl).2
        exact fun h => h
  cases op <;> simp only [useRecv] at hstep
  case read maxLen =>
    split at hstep <;> cases hstep
    · exact .quiet hh rfl rfl
    · exact hread maxLen _ (by
        intro n reply h
        cases h
        exact ⟨rfl, rfl⟩)
  case pollRead maxLen =>
    split at hstep <;> cases hstep
    · exact .quiet hh rfl rfl
    · exact hread maxLen _ (by intro _ _ h; cases h)
  case onReply =>
    split at hstep
    · rename_i n reply
      cases hstep
      obtain ⟨hconn, hstream⟩ := onReply_ids self [] (some reply)
      refine ⟨fun h hh' => ?_, Or.inl rfl, ?_⟩
      · obtain rfl : ⟨origin, .recvStream (self.onReply [] (some reply)).1 none⟩ = h := by
          simpa using hh'
        exact .received hconn hstream (by intro _ h; cases h)
      · intro index half howns hend
        have hopen : (self.onReply [] (some reply)).1 = self := by
          apply onReply_open
          rintro data rfl
          exact hend trivial
        exact Or.inl ⟨id, ⟨origin, .recvStream self none⟩, by simp [hopen], howns, fun h => h⟩
    · cases hstep
  case stop errorCode =>
    cases hstep
    exact stop_used errorCode hh
  all_goals cases hstep

/-! ## The other values -/

theorem pollEstablished_frame (s : Handles κ χ ψ) (id : Nat) (origin : Option Nat) (connId : Nat) :
    (s.pollEstablished id origin connId).queue = s.queue ∧
      ∀ i, i < s.next → (s.pollEstablished id origin connId).values i = s.values i := by
  unfold pollEstablished
  split
  · exact ⟨rfl, fun _ _ => rfl⟩
  · simp only
    split
    · exact ⟨rfl, fun i hi => add_values_lt hi _⟩
    · split <;> exact ⟨rfl, fun _ _ => rfl⟩

theorem pollConnecting_used (hid : id < s.next) {origin : Option Nat} {self : Connecting}
    (hh : s.values id = some ⟨origin, .connecting self⟩) :
    Used s (s.pollConnecting id origin self) id (.connecting self) := by
  unfold pollConnecting
  split
  · obtain ⟨hqueue, hvalues⟩ := s.pollEstablished_frame id origin ‹Nat›
    exact .quiet hh (hvalues id hid) hqueue
  · split
    · rename_i connId _
      obtain ⟨hqueue, hvalues⟩ := (s.setValue id (some ⟨origin, .connecting
        ⟨none, some connId, self.remoteAddr⟩⟩)).pollEstablished_frame id origin connId
      refine .other (fun _ _ h => h) (fun h hh' => ?_) (Or.inl hqueue)
      rw [hvalues id hid, setValue_values, if_pos rfl] at hh'
      cases hh'
      exact .identified _ _
    · exact .quiet hh rfl rfl

theorem pollAccept_used (hid : id < s.next) {origin : Option Nat} {self : AcceptStream}
    (branch : Branch) (hh : s.values id = some ⟨origin, .acceptStream self⟩) :
    Used s (s.pollAccept id origin self branch) id (.acceptStream self) := by
  have hgone : Used s (s.setValue id none) id (.acceptStream self) :=
    .other (fun _ _ h => h) (fun h hh' => by simp at hh') (Or.inl rfl)
  unfold pollAccept
  split
  · split
    · exact hgone
    · refine .other (fun _ _ h => h) (fun h hh' => ?_) (Or.inl rfl)
      rw [setValue_values, if_pos rfl] at hh'
      cases hh'
      exact .looked _ _
  · cases branch with
    | closed =>
      simp only
      split
      · exact hgone
      · exact .quiet hh rfl rfl
    | recv =>
      simp only
      split
      · exact .quiet hh rfl rfl
      · rename_i uid _ _ streamId queue _
        obtain ⟨hqueue, hvalues⟩ := ((s.setValue id none).modifyNotify uid
          fun cn => cn.setAcceptQueue queue self.dir).addHalves_frame origin self.connId streamId
            (self.dir == Dir.bi) true
        refine .other (fun _ _ h => h) (fun h hh' => ?_) (Or.inl hqueue)
        rw [hvalues id hid] at hh'
        simp [modifyNotify] at hh'

theorem useConnection_used (hid : id < s.next) {origin : Option Nat} {connId : Nat} {op : Op}
    (hh : s.values id = some ⟨origin, .connection connId⟩)
    (hstep : s.useConnection id origin connId op = some t) :
    Used s t id (.connection connId) := by
  have hadd : ∀ g, Used s (s.add g) id (.connection connId) :=
    fun g => .quiet hh (add_values_lt hid g) rfl
  have hsend : ∀ cmd, (s.send origin connId cmd).Fits connId cmd →
      opener (.onConn connId cmd : BridgeCommand χ ψ Respond) = none →
      Used s (s.send origin connId cmd) id (.connection connId) := by
    intro cmd hfits hopener
    refine .commanded rfl hfits hopener (fun h hh' => ?_) (fun _ _ howns => howns.elim)
    rw [hh] at hh'
    cases hh'
    exact .same _
  cases op <;> simp only [useConnection] at hstep <;> cases hstep
  case clone => exact hadd _
  case close => exact hsend _ trivial rfl
  case query q => exact hsend _ (by cases q <;> trivial) (by cases q <;> rfl)
  case openStream => exact hadd _
  case acceptStream => exact hadd _

theorem useIncoming_used {origin : Option Nat} {incomingId : Nat} {remoteAddr : SocketAddr}
    {op : Op} (hstep : s.useIncoming id origin incomingId remoteAddr op = some t) :
    Used s t id (.incoming incomingId remoteAddr) := by
  cases op <;> simp only [useIncoming] at hstep <;> cases hstep
  case accept =>
    refine .other (fun _ _ h => h) (fun h hh' => ?_)
      (Or.inr ⟨none, .acceptIncoming, rfl, (by intro _ _ h; cases h), rfl⟩)
    obtain rfl : ⟨origin, .connecting ⟨none, some incomingId, remoteAddr⟩⟩ = h := by
      simpa [setValue] using hh'
    exact .accepted _ _ _
  case refuse =>
    exact .commanded rfl trivial rfl (fun h hh' => by simp at hh') (fun _ _ howns => howns.elim)

theorem useValue_used (hid : id < s.next) {h : Handle} {op : Op} (hh : s.values id = some h)
    (hkeep : op = .drop → ∀ self streamId, h.value = .openStream self →
      self.rx ≠ some (some (.ok streamId)))
    (hstep : s.useValue id h op = some t) : Used s t id h.value := by
  obtain ⟨origin, v⟩ := h
  unfold useValue at hstep
  split at hstep
  · cases hstep
    have hgone : (∀ index half, ¬ v.Owns index half) → Used s (s.setValue id none) id v :=
      fun hnone => .other hnone (fun h hh' => by simp at hh') (Or.inl rfl)
    cases v with
    | sendStream self => exact dropSend_used
    | recvStream self rx => exact dropRecv_used
    | openStream self =>
      apply hgone
      rintro index half ⟨_, streamId, hrx, _⟩
      exact hkeep rfl self streamId rfl hrx
    | _ => exact hgone fun _ _ h => h
  · cases v with
    | connecting self =>
      cases hstep
      exact pollConnecting_used hid hh
    | openStream self =>
      cases hstep
      exact pollOpen_used hid hh
    | acceptStream self =>
      cases hstep
      exact pollAccept_used hid _ hh
    | _ => cases hstep
  · cases v with
    | incoming incomingId remoteAddr => exact useIncoming_used hstep
    | connection connId => exact useConnection_used hid hh hstep
    | sendStream self => exact useSend_used hh hstep
    | recvStream self rx => exact useRecv_used hid hh hstep
    | _ => cases hstep

end Handles

end TokioTquic
