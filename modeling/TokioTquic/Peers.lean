import TokioTquic.Ownership

/-!
# The streams of two peers

The open and accept futures of a client and of a server, joined by a transport
that creates a stream at one peer only after it was opened by the other.
-/

namespace TokioTquic
open Async
set_option autoImplicit false

universe u
variable {κ : Type u}

namespace Streams

/-- The ids the engine has given out stay given out, and only `on_stream_created` adds to
those created. -/
structure Grows (s t : Streams κ) (e : StreamsEvent κ) : Prop where
  opened : ∀ i ∈ s.opened, i ∈ t.opened
  created : ∀ i ∈ t.created, i ∈ s.created ∨ e = .bridge (.callback (.onStreamCreated i))

theorem Grows.same {s t : Streams κ} {e : StreamsEvent κ} (hopened : t.opened = s.opened)
    (hcreated : t.created = s.created) : s.Grows t e := by
  refine ⟨fun i hi => ?_, fun i hi => Or.inl ?_⟩
  · rw [hopened]
    exact hi
  · rw [← hcreated]
    exact hi

theorem deliver_opened (s : Streams κ) (x : Option (Nat × Reply)) :
    (s.deliver x).opened = s.opened := by
  unfold deliver
  split
  · split <;> rfl
  · rfl

theorem recordOpened_mem (s : Streams κ) (x : Option (Nat × Reply)) {i : Nat}
    (hi : i ∈ s.opened) : i ∈ (s.recordOpened x).opened := by
  unfold recordOpened
  split
  · exact List.mem_append_left _ hi
  · exact hi

theorem pollAccept_opened {s t : Streams κ} {id : Nat} {dir : Dir} {branch : Branch}
    {point : AcceptPoint} (hstep : s.pollAccept id dir branch point = some t) :
    t.opened = s.opened ∧ t.created = s.created := by
  cases pollAccept_cases hstep <;> exact ⟨rfl, rfl⟩

theorem pollOpen_opened {s t : Streams κ} {id : Nat} {dir : Dir} {point : OpenPoint}
    (hstep : s.pollOpen id dir point = some t) : t.opened = s.opened := by
  unfold pollOpen at hstep
  split at hstep
  · split at hstep <;> cases hstep <;> rfl
  · cases hstep
    rfl
  · cases hstep
    rfl
  · cases hstep
    rfl
  · cases hstep

theorem grows_step {T : Tquic κ} {s t : Streams κ} {e : StreamsEvent κ}
    (hstep : s.step T e = some t) : s.Grows t e := by
  cases e with
  | process =>
    obtain ⟨cmd, b, reply, -, rfl⟩ := step_process hstep
    have hsame := (deliver_same { s with bridge := b } reply).created
    refine ⟨fun i hi => ?_, fun i hi => Or.inl ?_⟩
    · rw [deliver_opened]
      exact recordOpened_mem { s with bridge := b } reply hi
    · rw [hsame] at hi
      exact hi
  | bridge e =>
    obtain ⟨b, -, rfl⟩ := step_bridge hstep
    unfold recordCreated
    split
    · rename_i streamId
      refine ⟨fun i hi => hi, fun i hi => ?_⟩
      rcases List.mem_append.mp hi with hi | hi
      · exact Or.inl hi
      · rw [List.mem_singleton.mp hi]
        exact Or.inr rfl
    · exact .same rfl rfl
  | accept id dir =>
    obtain ⟨-, rfl⟩ := step_accept hstep
    exact .same rfl rfl
  | pollAccept id branch =>
    obtain ⟨f, -, hpoll⟩ := step_pollAccept hstep
    obtain ⟨hopened, hcreated⟩ := pollAccept_opened hpoll
    exact .same hopened hcreated
  | dropAccept id =>
    obtain ⟨f, -, hdrop⟩ := step_dropAccept hstep
    cases hp : f.point <;> simp only [dropAccept, hp] at hdrop <;> cases hdrop <;>
      exact .same rfl rfl
  | openStream dir =>
    cases hstep
    exact .same rfl rfl
  | pollOpen id =>
    obtain ⟨f, -, hpoll⟩ := step_pollOpen hstep
    exact .same (pollOpen_opened hpoll) (pollOpen_same hpoll).created
  | dropOpen id =>
    obtain ⟨f, -, hdrop⟩ := step_dropOpen hstep
    cases hp : f.point <;> simp only [dropOpen, hp] at hdrop <;> cases hdrop <;>
      exact .same rfl rfl

end Streams

/-! ## Both peers -/

structure Peers (κ : Type u) where
  client : Streams κ
  server : Streams κ

inductive PeersEvent (κ : Type u) where
  | client (e : StreamsEvent κ)
  | server (e : StreamsEvent κ)

namespace Peers

def init (client server : κ) (clientAddr serverAddr : SocketAddr) : Peers κ where
  client := Streams.init client serverAddr false
  server := Streams.init server clientAddr true

def step (T : Tquic κ) (s : Peers κ) : PeersEvent κ → Option (Peers κ)
  | .client e => (s.client.step T e).map fun client => { s with client := client }
  | .server e => (s.server.step T e).map fun server => { s with server := server }

/-- What the transport promises an endpoint: a stream of the other one's is created after
it was opened there. -/
def Announced (isServer : Bool) (other : Streams κ) : StreamsEvent κ → Prop
  | .bridge (.callback (.onStreamCreated streamId)) =>
    ∀ dir, streamId % 4 = streamKind (!isServer) dir → streamId ∈ other.opened
  | _ => True

def Joined (T : Tquic κ) (s : Peers κ) : PeersEvent κ → Prop
  | .client e => s.client.FreshIds T e ∧ Announced false s.server e
  | .server e => s.server.FreshIds T e ∧ Announced true s.client e

def Known (isServer : Bool) (s other : Streams κ) : Prop :=
  ∀ i ∈ s.created, peerInitiated isServer i = true → i ∈ other.opened

structure Sound (s : Peers κ) : Prop where
  client : s.client.Owned false
  server : s.server.Owned true
  toClient : Known false s.client s.server
  toServer : Known true s.server s.client

theorem known_receiver {T : Tquic κ} {isServer : Bool} {s t other : Streams κ}
    {e : StreamsEvent κ} (hs : Known isServer s other) (hguard : Announced isServer other e)
    (hstep : s.step T e = some t) : Known isServer t other := by
  intro i hi hpeer
  rcases (Streams.grows_step hstep).created i hi with hold | rfl
  · exact hs i hold hpeer
  · exact hguard _ ((peer_streamKind isServer i _).mp ⟨hpeer, rfl⟩)

theorem known_sender {T : Tquic κ} {isServer : Bool} {s t other : Streams κ}
    {e : StreamsEvent κ} (hs : Known isServer other s) (hstep : s.step T e = some t) :
    Known isServer other t := by
  intro i hi hpeer
  exact (Streams.grows_step hstep).opened i (hs i hi hpeer)

theorem sound_step {T : Tquic κ} {s t : Peers κ} {e : PeersEvent κ} (hs : s.Sound)
    (hguard : s.Joined T e) (hstep : s.step T e = some t) : t.Sound := by
  cases e with
  | client e =>
    obtain ⟨client, hclient, rfl⟩ := Option.map_eq_some_iff.mp hstep
    exact ⟨Streams.owned_step hs.client hguard.1 hclient, hs.server,
      known_receiver hs.toClient hguard.2 hclient, known_sender hs.toServer hclient⟩
  | server e =>
    obtain ⟨server, hserver, rfl⟩ := Option.map_eq_some_iff.mp hstep
    exact ⟨hs.client, Streams.owned_step hs.server hguard.1 hserver,
      known_sender hs.toClient hserver, known_receiver hs.toServer hguard.2 hserver⟩

theorem sound_init (client server : κ) (clientAddr serverAddr : SocketAddr) :
    (init client server clientAddr serverAddr).Sound where
  client := Streams.owned_init client serverAddr false
  server := Streams.owned_init server clientAddr true
  toClient := by simp [Known, init, Streams.init]
  toServer := by simp [Known, init, Streams.init]

/-! ## Who has a stream -/

/-- The bytes of stream `i` from `writer` to `reader`: at most one handle at each end, and
only for a stream that one of the two opened. A unidirectional one has no other way. -/
structure Pipe (writer reader : Streams κ) (i : Nat) : Prop where
  one_writer : writer.sends.count i ≤ 1
  one_reader : reader.recvs.count i ≤ 1
  opened : i ∈ writer.sends ∨ i ∈ reader.recvs → i ∈ writer.opened ∨ i ∈ reader.opened
  one_way : 2 ≤ i % 4 → i ∈ writer.sends ∨ i ∈ reader.recvs →
    i ∈ writer.opened ∧ i ∉ writer.recvs ∧ i ∉ reader.sends

/-- The accept futures of a direction return streams that the other peer opened in it, each
once; `byServer` tells which peer that is. -/
structure Accepts (byServer : Bool) (opener acceptor : Streams κ) (dir : Dir) : Prop where
  nodup : (acceptor.delivered dir).Nodup
  opened : ∀ i ∈ acceptor.delivered dir, i ∈ opener.opened ∧
    i % 4 = streamKind byServer dir ∧ i ∉ acceptor.opened

theorem peerInitiated_not (isServer : Bool) (i : Nat) :
    peerInitiated (!isServer) i = !peerInitiated isServer i := by
  rw [Bool.eq_iff_iff, Bool.not_eq_true', ← Bool.not_eq_true, peerInitiated_iff, peerInitiated_iff]
  cases isServer <;> simp

section
variable {isServer : Bool} {a b : Streams κ}

theorem opened_delivered (hb : b.Owned isServer) (hknown : Known isServer b a) {dir : Dir} {i : Nat}
    (hi : i ∈ b.delivered dir) :
    i ∈ a.opened ∧ streamDir i = dir ∧ peerInitiated isServer i = true := by
  obtain ⟨hand, -, hbooks⟩ := hb.inOrder.ordered dir
  have hmem : i ∈ b.peerCreated dir := by
    rw [hbooks]
    exact List.mem_append_left _ hi
  obtain ⟨hcreated, hboth⟩ := List.mem_filter.mp hmem
  rw [hb.side, Bool.and_eq_true, beq_iff_eq] at hboth
  exact ⟨hknown i hcreated hboth.1, hboth.2, hboth.1⟩

theorem accepts_of_owned (hb : b.Owned isServer) (hknown : Known isServer b a) (dir : Dir) :
    Accepts (!isServer) a b dir := by
  refine ⟨?_, fun i hi => ?_⟩
  · obtain ⟨hand, -, hbooks⟩ := hb.inOrder.ordered dir
    have hnodup : (b.peerCreated dir).Nodup := hb.created.filter _
    rw [hbooks] at hnodup
    exact hnodup.sublist (List.sublist_append_left _ _)
  · obtain ⟨hopened, hdir, hpeer⟩ := opened_delivered hb hknown hi
    refine ⟨hopened, (peer_streamKind isServer i dir).mp ⟨hpeer, hdir⟩, fun hlocal => ?_⟩
    have hfalse := hb.opening.isLocal i hlocal
    rw [hpeer] at hfalse
    cases hfalse

theorem sends_opened (ha : a.Owned (!isServer)) (hknown : Known (!isServer) a b) {i : Nat}
    (hi : i ∈ a.sends) :
    (i ∈ a.opened ∧ peerInitiated isServer i = true) ∨
      (i ∈ b.opened ∧ streamDir i = .bi ∧ peerInitiated isServer i = false) := by
  rcases ha.halves.sends i hi with ⟨hpeer, hdelivered⟩ | ⟨hlocal, hclaimed⟩
  · obtain ⟨hopened, hdir, -⟩ := opened_delivered ha hknown hdelivered
    rw [peerInitiated_not, Bool.not_eq_true'] at hpeer
    exact Or.inr ⟨hopened, hdir, hpeer⟩
  · rw [peerInitiated_not, Bool.not_eq_false'] at hlocal
    exact Or.inl ⟨ha.opening.claimed i hclaimed, hlocal⟩

theorem recvs_opened (hb : b.Owned isServer) (hknown : Known isServer b a) {i : Nat}
    (hi : i ∈ b.recvs) :
    (i ∈ a.opened ∧ peerInitiated isServer i = true) ∨
      (i ∈ b.opened ∧ streamDir i = .bi ∧ peerInitiated isServer i = false) := by
  rcases hb.halves.recvs i hi with ⟨hpeer, hdelivered⟩ | ⟨hlocal, hclaimed, hdir⟩
  · exact Or.inl ⟨(opened_delivered hb hknown hdelivered).1, hpeer⟩
  · exact Or.inr ⟨hb.opening.claimed i hclaimed, hdir, hlocal⟩

theorem pipe_of_owned (hb : b.Owned isServer) (ha : a.Owned (!isServer))
    (hab : Known isServer b a) (hba : Known (!isServer) a b) (i : Nat) : Pipe a b i := by
  have hends : i ∈ a.sends ∨ i ∈ b.recvs →
      (i ∈ a.opened ∧ peerInitiated isServer i = true) ∨
        (i ∈ b.opened ∧ streamDir i = .bi ∧ peerInitiated isServer i = false) := by
    intro h
    rcases h with h | h
    · exact sends_opened ha hba h
    · exact recvs_opened hb hab h
  refine ⟨List.nodup_iff_count.mp ha.halves.sends_nodup i,
    List.nodup_iff_count.mp hb.halves.recvs_nodup i, fun h => ?_, fun hkind h => ?_⟩
  · exact (hends h).imp And.left And.left
  · have hbi : streamDir i ≠ .bi := by
      rw [ne_eq, streamDir_iff]
      simp
      omega
    have hwriter : i ∈ a.opened ∧ peerInitiated isServer i = true :=
      (hends h).resolve_right fun h' => hbi h'.2.1
    refine ⟨hwriter.1, fun hrecv => ?_, fun hsend => ?_⟩
    · rcases ha.halves.recvs i hrecv with ⟨hpeer, -⟩ | ⟨-, -, hdir⟩
      · rw [peerInitiated_not, hwriter.2] at hpeer
        cases hpeer
      · exact hbi hdir
    · rcases hb.halves.sends i hsend with ⟨-, hdelivered⟩ | ⟨hlocal, -⟩
      · exact hbi (opened_delivered hb hab hdelivered).2.1
      · rw [hwriter.2] at hlocal
        cases hlocal

end

/-- Between a client and a server no stream gets a second writer or a second reader in
either direction, and each accepts what the other opened. -/
theorem streams_paired (T : Tquic κ) (client server : κ) (clientAddr serverAddr : SocketAddr)
    (s : Peers κ)
    (hs : Reach (step T) (Joined T) (init client server clientAddr serverAddr) s) :
    (∀ i, Pipe s.client s.server i ∧ Pipe s.server s.client i) ∧
      ∀ dir, Accepts false s.client s.server dir ∧ Accepts true s.server s.client dir := by
  have hsound : s.Sound := by
    induction hs with
    | refl => exact sound_init client server clientAddr serverAddr
    | tail _ hguard hstep ih => exact sound_step ih hguard hstep
  obtain ⟨hclient, hserver, htoClient, htoServer⟩ := hsound
  refine ⟨fun i => ⟨?_, ?_⟩, fun dir => ⟨?_, ?_⟩⟩
  · exact pipe_of_owned hserver hclient htoServer htoClient i
  · exact pipe_of_owned hclient hserver htoClient htoServer i
  · exact accepts_of_owned hserver htoServer dir
  · exact accepts_of_owned hclient htoClient dir

/-- The client opens a stream and the server accepts it. -/
def firstStreamRun : List (PeersEvent Script) :=
  [.client (.openStream .bi), .client (.pollOpen 0), .client (.pollOpen 0), .client .process,
    .client (.pollOpen 0), .server (.bridge (.callback (.onStreamCreated 0))),
    .server (.bridge .exec), .server (.bridge .exec), .server (.bridge .exec),
    .server (.accept 0 .bi), .server (.pollAccept 0 .recv), .server (.pollAccept 0 .recv),
    .server (.pollAccept 0 .recv), .server (.pollAccept 0 .recv), .server (.pollAccept 0 .recv)]

theorem streams_paired_first :
    ∃ s : Peers Script,
      run (step Tquic.scripted) (init { opens := [0] } {} .unspecified .unspecified)
        firstStreamRun = some s ∧
      s.client.sends = [0] ∧ s.server.recvs = [0] ∧ Pipe s.client s.server 0 ∧
      Accepts false s.client s.server .bi := by
  obtain ⟨s, hrun, hsends, hrecvs, hjoined⟩ : ∃ s : Peers Script,
      run (step Tquic.scripted) (init { opens := [0] } {} .unspecified .unspecified)
        firstStreamRun = some s ∧
      s.client.sends = [0] ∧ s.server.recvs = [0] ∧
      Along (step Tquic.scripted) (Joined Tquic.scripted)
        (init { opens := [0] } {} .unspecified .unspecified) firstStreamRun := by
    refine ⟨_, rfl, rfl, rfl, ⟨trivial, trivial⟩, ⟨trivial, trivial⟩, ⟨trivial, trivial⟩,
      ⟨?_, trivial⟩, ⟨trivial, trivial⟩, ⟨List.not_mem_nil, fun _ _ => List.mem_singleton.mpr rfl⟩,
      ⟨trivial, trivial⟩, ⟨trivial, trivial⟩, ⟨trivial, trivial⟩, ⟨trivial, trivial⟩,
      ⟨trivial, trivial⟩, ⟨trivial, trivial⟩, ⟨trivial, trivial⟩, ⟨trivial, trivial⟩,
      ⟨trivial, trivial⟩, trivial⟩
    intro dir id hhead c hc i hi
    cases hc
    cases dir with
    | bi =>
      cases hi
      exact ⟨List.not_mem_nil, rfl⟩
    | uni => cases hhead
  obtain ⟨hpipes, haccepts⟩ :=
    streams_paired Tquic.scripted _ _ _ _ s (reach_of_along hrun hjoined)
  exact ⟨s, hrun, hsends, hrecvs, (hpipes 0).1, (haccepts .bi).1⟩

end Peers

end TokioTquic
