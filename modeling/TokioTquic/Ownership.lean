import TokioTquic.Accept

/-!
# Every stream half has one owner

Halves are constructed from the ids of open replies, which carry the local
initiator bit, and from the accept queues, which carry the peer's. Within each
source an id is used once.
-/

namespace TokioTquic
open Async
set_option autoImplicit false

universe u
variable {κ : Type u}

def Tquic.streamNew (T : Tquic κ) (dir : Dir) (c : κ) : Except TquicError Nat × κ :=
  match dir with
  | .bi => T.streamBidiNew c
  | .uni => T.streamUniNew c

namespace Streams

/-- What the engine promises: a new local stream has a fresh id of the local initiator and
the direction asked for, and a stream is created once. -/
def FreshIds (T : Tquic κ) (s : Streams κ) : StreamsEvent κ → Prop
  | .process => ∀ dir id, s.bridge.queue.head? = some (openCommand dir id) →
      ∀ c ∈ s.bridge.conn, ∀ streamId, (T.streamNew dir c).1 = .ok streamId →
        streamId ∉ s.opened ∧ streamId % 4 = streamKind s.bridge.cn.isServer dir
  | .bridge (.callback (.onStreamCreated streamId)) => streamId ∉ s.created
  | _ => True

def Holding (s : Streams κ) (id : Nat) (dir : Dir) (streamId : Nat) : Prop :=
  s.opens id = some ⟨dir, .awaiting (some (.opened (.ok streamId)))⟩

structure Opening (isServer : Bool) (s : Streams κ) : Prop where
  fresh : ∀ id f, s.opens id = some f → id < s.next
  queue : ∀ cmd ∈ s.bridge.queue, ∃ dir id, cmd = openCommand dir id ∧ id < s.next ∧
    ∀ f, s.opens id = some f → f.dir = dir
  isLocal : ∀ i ∈ s.opened, peerInitiated isServer i = false
  holding : ∀ id dir i, s.Holding id dir i → i ∈ s.opened ∧ i ∉ s.claimed ∧ streamDir i = dir
  distinct : ∀ id id' dir dir' i, s.Holding id dir i → s.Holding id' dir' i → id = id'
  claimed : ∀ i ∈ s.claimed, i ∈ s.opened

structure Halves (isServer : Bool) (s : Streams κ) : Prop where
  sends : ∀ i ∈ s.sends, (peerInitiated isServer i = true ∧ i ∈ s.delivered .bi) ∨
    (peerInitiated isServer i = false ∧ i ∈ s.claimed)
  recvs : ∀ i ∈ s.recvs, (peerInitiated isServer i = true ∧ i ∈ s.delivered (streamDir i)) ∨
    (peerInitiated isServer i = false ∧ i ∈ s.claimed ∧ streamDir i = .bi)
  sends_nodup : s.sends.Nodup
  recvs_nodup : s.recvs.Nodup

structure Owned (isServer : Bool) (s : Streams κ) : Prop where
  side : s.bridge.cn.isServer = isServer
  inOrder : s.InOrder
  created : s.created.Nodup
  opening : s.Opening isServer
  halves : s.Halves isServer

/-- Accepting a stream does not touch what opening one is about. -/
structure SameOpens (s s' : Streams κ) : Prop where
  opens : s'.opens = s.opens
  queue : s'.bridge.queue = s.bridge.queue
  next : s'.next = s.next
  opened : s'.opened = s.opened
  claimed : s'.claimed = s.claimed

structure SameHalves (s s' : Streams κ) : Prop where
  sends : s'.sends = s.sends
  recvs : s'.recvs = s.recvs
  delivered : s'.delivered = s.delivered
  claimed : s'.claimed = s.claimed

theorem Opening.same {isServer : Bool} {s s' : Streams κ} (hs : s.Opening isServer)
    (h : SameOpens s s') : s'.Opening isServer := by
  rcases h with ⟨hopens, hqueue, hnext, hopened, hclaimed⟩
  constructor
  · rw [hopens, hnext]
    exact hs.fresh
  · rw [hqueue, hnext, hopens]
    exact hs.queue
  · rw [hopened]
    exact hs.isLocal
  · simp only [Holding, hopens, hopened, hclaimed]
    exact hs.holding
  · simp only [Holding, hopens]
    exact hs.distinct
  · rw [hclaimed, hopened]
    exact hs.claimed

theorem Halves.same {isServer : Bool} {s s' : Streams κ} (hs : s.Halves isServer)
    (h : SameHalves s s') : s'.Halves isServer := by
  rcases h with ⟨hsends, hrecvs, hdelivered, hclaimed⟩
  constructor
  · rw [hsends, hdelivered, hclaimed]
    exact hs.sends
  · rw [hrecvs, hdelivered, hclaimed]
    exact hs.recvs
  · rw [hsends]
    exact hs.sends_nodup
  · rw [hrecvs]
    exact hs.recvs_nodup

/-! ## Opening -/

theorem Opening.set {isServer : Bool} {s s' : Streams κ} (hs : s.Opening isServer) {id : Nat}
    {f' : Option OpenFuture} (hopens : s'.opens = Function.update s.opens id f')
    (hfresh : ∀ g ∈ f', id < s'.next) (hnone : ∀ dir i, f' ≠
      some ⟨dir, .awaiting (some (.opened (.ok i)))⟩)
    (hqueue : ∀ cmd ∈ s'.bridge.queue, ∃ dir id, cmd = openCommand dir id ∧ id < s'.next ∧
      ∀ f, s'.opens id = some f → f.dir = dir)
    (hnext : s.next ≤ s'.next) (hopened : s'.opened = s.opened)
    (hclaimed : s'.claimed = s.claimed) : s'.Opening isServer := by
  have hold : ∀ id' dir i, s'.Holding id' dir i → s.Holding id' dir i := by
    intro id' dir i h
    by_cases hid : id' = id
    · subst hid
      rw [Holding, hopens, Function.update_self] at h
      exact absurd h (hnone dir i)
    · rwa [Holding, hopens, Function.update_of_ne hid] at h
  constructor
  · intro id' f hf
    by_cases hid : id' = id
    · subst hid
      rw [hopens, Function.update_self] at hf
      exact hfresh f hf
    · rw [hopens, Function.update_of_ne hid] at hf
      exact Nat.lt_of_lt_of_le (hs.fresh id' f hf) hnext
  · exact hqueue
  · rw [hopened]
    exact hs.isLocal
  · intro id' dir i h
    rw [hopened, hclaimed]
    exact hs.holding id' dir i (hold id' dir i h)
  · intro id₁ id₂ dir₁ dir₂ i h₁ h₂
    exact hs.distinct id₁ id₂ dir₁ dir₂ i (hold _ _ _ h₁) (hold _ _ _ h₂)
  · rw [hopened, hclaimed]
    exact hs.claimed

theorem queue_update {s : Streams κ} (s' : Streams κ) {id : Nat} {f' : Option OpenFuture}
    (hs : ∀ cmd ∈ s.bridge.queue, ∃ dir id, cmd = openCommand dir id ∧ id < s.next ∧
      ∀ f, s.opens id = some f → f.dir = dir)
    (hopens : s'.opens = Function.update s.opens id f')
    (hkeep : ∀ g ∈ f', id < s.next → ∃ f, s.opens id = some f ∧ f.dir = g.dir)
    (hnext : s.next ≤ s'.next) {cmd : ConnCommand Nat} (hcmd : cmd ∈ s.bridge.queue) :
    ∃ dir id, cmd = openCommand dir id ∧ id < s'.next ∧
      ∀ f, s'.opens id = some f → f.dir = dir := by
  obtain ⟨dir, id₀, rfl, hlt, hdir⟩ := hs cmd hcmd
  refine ⟨dir, id₀, rfl, by omega, fun g hg => ?_⟩
  by_cases hid : id₀ = id
  · subst hid
    rw [hopens, Function.update_self] at hg
    obtain ⟨f, hf, hsame⟩ := hkeep g hg hlt
    rw [← hsame]
    exact hdir f hf
  · rw [hopens, Function.update_of_ne hid] at hg
    exact hdir g hg

theorem opening_advance {isServer : Bool} {s s' : Streams κ} (hs : s.Opening isServer) {id : Nat}
    {f : OpenFuture} {f' : Option OpenFuture} (hf : s.opens id = some f)
    (hs' : s' = s.setOpen id f') (hdir : ∀ g ∈ f', f.dir = g.dir)
    (hnone : ∀ dir i, f' ≠ some ⟨dir, .awaiting (some (.opened (.ok i)))⟩) :
    s'.Opening isServer := by
  subst hs'
  refine hs.set rfl (fun _ _ => hs.fresh id f hf) hnone ?_ (Nat.le_refl _) rfl rfl
  exact fun cmd hcmd => queue_update (s.setOpen id f') hs.queue rfl
    (fun g hg _ => ⟨f, hf, hdir g hg⟩) (Nat.le_refl _) hcmd

theorem opening_send {isServer : Bool} {s : Streams κ} (hs : s.Opening isServer) {id : Nat}
    {dir : Dir} (hf : s.opens id = some ⟨dir, .send⟩) :
    ({ s with bridge := s.bridge.sendCmd (openCommand dir id) }.setOpen id
      (some ⟨dir, .awaiting none⟩)).Opening isServer := by
  refine hs.set rfl (fun _ _ => hs.fresh id _ hf) (by simp) ?_ (Nat.le_refl _) rfl rfl
  intro cmd hcmd
  rcases List.mem_append.mp hcmd with hcmd | hcmd
  · refine queue_update (s.setOpen id (some ⟨dir, .awaiting none⟩)) hs.queue rfl
      (fun g hg _ => ⟨_, hf, ?_⟩) (Nat.le_refl _) hcmd
    obtain rfl := Option.mem_some.mp hg
    rfl
  · obtain rfl := List.mem_singleton.mp hcmd
    refine ⟨dir, id, rfl, hs.fresh id _ hf, fun f hf' => ?_⟩
    have hsome : f = ⟨dir, .awaiting none⟩ := by simpa [setOpen, eq_comm] using hf'
    rw [hsome]

theorem opening_complete {isServer : Bool} {s : Streams κ} (hs : s.Opening isServer) {id : Nat}
    {dir : Dir} {streamId : Nat} (hf : s.Holding id dir streamId) :
    (s.completeOpen id dir streamId).Opening isServer := by
  have hold : ∀ id' dir' i, (s.completeOpen id dir streamId).Holding id' dir' i →
      id' ≠ id ∧ s.Holding id' dir' i := by
    intro id' dir' i h
    have hid : id' ≠ id := by
      rintro rfl
      simp [Holding, completeOpen, construct, setOpen] at h
    exact ⟨hid, by simpa [Holding, completeOpen, construct, setOpen, hid] using h⟩
  obtain ⟨hopened, _, _⟩ := hs.holding id dir streamId hf
  constructor
  · intro id' f hf'
    by_cases hid : id' = id
    · subst hid
      simp [completeOpen, construct, setOpen] at hf'
    · exact hs.fresh id' f (by simpa [completeOpen, construct, setOpen, hid] using hf')
  · exact fun cmd hcmd => queue_update (s.completeOpen id dir streamId) hs.queue rfl
      (by simp) (Nat.le_refl _) hcmd
  · exact hs.isLocal
  · intro id' dir' i h
    obtain ⟨hid, hold'⟩ := hold id' dir' i h
    obtain ⟨hmem, hfree, hdir⟩ := hs.holding id' dir' i hold'
    refine ⟨hmem, ?_, hdir⟩
    have hne : i ≠ streamId := by
      rintro rfl
      exact hid (hs.distinct id' id dir' dir i hold' hf)
    simp [completeOpen, construct, hfree, hne]
  · intro id₁ id₂ dir₁ dir₂ i h₁ h₂
    exact hs.distinct id₁ id₂ dir₁ dir₂ i (hold _ _ _ h₁).2 (hold _ _ _ h₂).2
  · intro i hi
    have hcases : i ∈ s.claimed ∨ i = streamId := by simpa [completeOpen, construct] using hi
    rcases hcases with hi | rfl
    · exact hs.claimed i hi
    · exact hopened

theorem halves_complete {isServer : Bool} {s : Streams κ} (hs : s.Halves isServer)
    (ho : s.Opening isServer) {id : Nat} {dir : Dir} {streamId : Nat}
    (hf : s.Holding id dir streamId) : (s.completeOpen id dir streamId).Halves isServer := by
  obtain ⟨hopened, hfree, hdir⟩ := ho.holding id dir streamId hf
  have hlocal := ho.isLocal streamId hopened
  have hsend : streamId ∉ s.sends := by
    intro hmem
    rcases hs.sends streamId hmem with ⟨hpeer, _⟩ | ⟨_, hclaimed⟩
    · simp [hlocal] at hpeer
    · exact hfree hclaimed
  have hrecv : streamId ∉ s.recvs := by
    intro hmem
    rcases hs.recvs streamId hmem with ⟨hpeer, _⟩ | ⟨_, hclaimed, _⟩
    · simp [hlocal] at hpeer
    · exact hfree hclaimed
  constructor
  · intro i hi
    have hcases : i ∈ s.sends ∨ i = streamId := by
      simpa [completeOpen, construct, setOpen] using hi
    rcases hcases with hi | rfl
    · rcases hs.sends i hi with hpeer | ⟨hl, hclaimed⟩
      · exact Or.inl hpeer
      · exact Or.inr ⟨hl, by simp [completeOpen, construct, hclaimed]⟩
    · exact Or.inr ⟨hlocal, by simp [completeOpen, construct]⟩
  · intro i hi
    have hcases : i ∈ s.recvs ∨ (i = streamId ∧ dir = .bi) := by
      cases dir <;> simpa [completeOpen, construct, setOpen] using hi
    rcases hcases with hi | ⟨rfl, rfl⟩
    · rcases hs.recvs i hi with hpeer | ⟨hl, hclaimed, hbi⟩
      · exact Or.inl hpeer
      · exact Or.inr ⟨hl, by simp [completeOpen, construct, hclaimed], hbi⟩
    · exact Or.inr ⟨hlocal, by simp [completeOpen, construct], hdir⟩
  · have hnodup : (s.sends ++ [streamId]).Nodup := by
      simpa [List.nodup_append, hs.sends_nodup] using fun i hi => ne_of_mem_of_not_mem hi hsend
    exact hnodup
  · have hnodup : (s.recvs ++ [streamId]).Nodup := by
      simpa [List.nodup_append, hs.recvs_nodup] using fun i hi => ne_of_mem_of_not_mem hi hrecv
    cases dir with
    | bi => exact hnodup
    | uni => exact hs.recvs_nodup

theorem halves_accept {isServer : Bool} {s : Streams κ} (hs : s.Owned isServer) {id : Nat}
    {dir : Dir} {streamId : Nat} (hf : s.accepts id = some ⟨dir, .taken streamId⟩) :
    (s.completeAccept id dir streamId).Halves isServer := by
  obtain ⟨hand, hhand, hbooks⟩ := hs.inOrder.ordered dir
  obtain rfl := hhand.1 id streamId hf
  have hmem : streamId ∈ s.peerCreated dir := by
    rw [hbooks]
    simp
  have hpeer : peerInitiated isServer streamId = true ∧ streamDir streamId = dir := by
    simpa [hs.side] using (List.mem_filter.mp hmem).2
  have hnew : streamId ∉ s.delivered dir := by
    have hnodup : (s.peerCreated dir).Nodup := hs.created.filter _
    rw [hbooks, List.nodup_append] at hnodup
    exact fun hold => hnodup.2.2 streamId hold streamId (by simp) rfl
  have hdelivered : ∀ i d, i ∈ (s.completeAccept id dir streamId).delivered d ↔
      i ∈ s.delivered d ∨ (i = streamId ∧ d = dir) := by
    intro i d
    by_cases hd : d = dir
    · subst hd
      simp [completeAccept, construct, release, setCn, setAccept]
    · simp [completeAccept, construct, release, setCn, setAccept, hd]
  have hsend : dir = .bi → streamId ∉ s.sends := by
    rintro rfl hi
    rcases hs.halves.sends streamId hi with ⟨_, hold⟩ | ⟨hl, _⟩
    · exact hnew hold
    · simp [hpeer.1] at hl
  have hrecv : streamId ∉ s.recvs := by
    intro hi
    rcases hs.halves.recvs streamId hi with ⟨_, hold⟩ | ⟨hl, _⟩
    · exact hnew (hpeer.2 ▸ hold)
    · simp [hpeer.1] at hl
  constructor
  · intro i hi
    rw [hdelivered]
    have hcases : i ∈ s.sends ∨ (i = streamId ∧ dir = .bi) := by
      cases dir <;> simpa [completeAccept, construct, release, setCn, setAccept] using hi
    rcases hcases with hi | ⟨rfl, rfl⟩
    · rcases hs.halves.sends i hi with ⟨hp, hold⟩ | hlocal
      · exact Or.inl ⟨hp, Or.inl hold⟩
      · exact Or.inr hlocal
    · exact Or.inl ⟨hpeer.1, Or.inr ⟨rfl, rfl⟩⟩
  · intro i hi
    rw [hdelivered]
    have hcases : i ∈ s.recvs ∨ i = streamId := by
      simpa [completeAccept, construct, release, setCn, setAccept] using hi
    rcases hcases with hi | rfl
    · rcases hs.halves.recvs i hi with ⟨hp, hold⟩ | hlocal
      · exact Or.inl ⟨hp, Or.inl hold⟩
      · exact Or.inr hlocal
    · exact Or.inl ⟨hpeer.1, Or.inr ⟨rfl, hpeer.2⟩⟩
  · cases dir with
    | bi =>
      have hnodup : (s.sends ++ [streamId]).Nodup := by
        simpa [List.nodup_append, hs.halves.sends_nodup] using
          fun i hi => ne_of_mem_of_not_mem hi (hsend rfl)
      exact hnodup
    | uni => exact hs.halves.sends_nodup
  · have hnodup : (s.recvs ++ [streamId]).Nodup := by
      simpa [List.nodup_append, hs.halves.recvs_nodup] using
        fun i hi => ne_of_mem_of_not_mem hi hrecv
    exact hnodup

theorem open_reply {T : Tquic κ} {conn conn' : Option κ} {dir : Dir} {id : Nat}
    {reply : Option (Nat × Reply)}
    (h : processConnCommand T conn (openCommand dir id) = (conn', reply)) :
    (∃ e, reply = some (id, .opened (.error e))) ∨
      ∃ c ∈ conn, ∃ i, (T.streamNew dir c).1 = .ok i ∧ reply = some (id, .opened (.ok i)) := by
  have hreply : reply =
      some (id, .opened (openReply (conn.map fun c => (T.streamNew dir c).1))) := by
    cases dir with
    | bi => cases conn <;> exact (congrArg Prod.snd h).symm
    | uni => cases conn <;> exact (congrArg Prod.snd h).symm
  rw [hreply]
  cases conn with
  | none => exact Or.inl ⟨_, rfl⟩
  | some c =>
    rcases hnew : (T.streamNew dir c).1 with e | i
    · exact Or.inl ⟨.locallyClosed, by simp [hnew, openReply]⟩
    · exact Or.inr ⟨c, rfl, i, hnew, by simp [hnew, openReply]⟩

theorem opening_refused {isServer : Bool} {s : Streams κ} (hs : s.Opening isServer) (id : Nat)
    (e : ConnectionError) : (s.deliver (some (id, .opened (.error e)))).Opening isServer := by
  unfold deliver
  split
  · rename_i id' r heq
    obtain ⟨rfl, rfl⟩ : id = id' ∧ Reply.opened (.error e) = r := by simpa using heq
    split
    · rename_i dir hf
      exact opening_advance hs hf rfl (by simp) (by simp)
    · exact hs
  · exact hs

theorem opening_granted {isServer : Bool} {s : Streams κ} (hs : s.Opening isServer) {id : Nat}
    {dir : Dir} {streamId : Nat} (hdir : ∀ f, s.opens id = some f → f.dir = dir)
    (hnew : streamId ∉ s.opened) (hlocal : peerInitiated isServer streamId = false)
    (hside : streamDir streamId = dir) :
    (({ s with opened := s.opened ++ [streamId] } : Streams κ).deliver
      (some (id, .opened (.ok streamId)))).Opening isServer := by
  have hgrow : Streams.Opening isServer { s with opened := s.opened ++ [streamId] } := by
    refine ⟨hs.fresh, hs.queue, ?_, ?_, hs.distinct, ?_⟩
    · intro i hi
      rcases List.mem_append.mp hi with hi | hi
      · exact hs.isLocal i hi
      · rwa [List.mem_singleton.mp hi]
    · intro id' dir' i h
      obtain ⟨hopened, hrest⟩ := hs.holding id' dir' i h
      exact ⟨List.mem_append_left _ hopened, hrest⟩
    · exact fun i hi => List.mem_append_left _ (hs.claimed i hi)
  simp only [deliver]
  split
  · rename_i dir' hf
    obtain rfl : dir' = dir := hdir _ hf
    -- the future `id` now holds the new id, and nobody else can
    have hcases : ∀ id' d i, (({ s with opened := s.opened ++ [streamId] } : Streams κ).setOpen id
        (some ⟨dir', .awaiting (some (.opened (.ok streamId)))⟩)).Holding id' d i →
        (id' = id ∧ d = dir' ∧ i = streamId) ∨ (id' ≠ id ∧ s.Holding id' d i) := by
      intro id' d i h
      by_cases hid : id' = id
      · subst hid
        have heq : dir' = d ∧ streamId = i := by simpa [Holding, setOpen] using h
        exact Or.inl ⟨rfl, heq.1.symm, heq.2.symm⟩
      · exact Or.inr ⟨hid, by simpa [Holding, setOpen, hid] using h⟩
    constructor
    · intro id' f hf'
      by_cases hid : id' = id
      · subst hid
        exact hs.fresh id' _ hf
      · exact hs.fresh id' f (by simpa [setOpen, hid] using hf')
    · intro cmd hcmd
      refine queue_update (({ s with opened := s.opened ++ [streamId] } : Streams κ).setOpen
        id (some ⟨dir', .awaiting (some (.opened (.ok streamId)))⟩)) hgrow.queue rfl
        (fun g hg _ => ⟨_, hf, ?_⟩) (Nat.le_refl _) hcmd
      obtain rfl := Option.mem_some.mp hg
      rfl
    · exact hgrow.isLocal
    · intro id' d i h
      rcases hcases id' d i h with ⟨rfl, rfl, rfl⟩ | ⟨_, hold⟩
      · exact ⟨by simp [setOpen], fun hmem => hnew (hs.claimed i hmem), hside⟩
      · exact hgrow.holding id' d i hold
    · intro id₁ id₂ d₁ d₂ i h₁ h₂
      rcases hcases _ _ _ h₁ with ⟨rfl, _, rfl⟩ | ⟨_, hold₁⟩ <;>
        rcases hcases _ _ _ h₂ with ⟨rfl, _, heq⟩ | ⟨_, hold₂⟩
      · rfl
      · exact absurd (hs.holding _ _ _ hold₂).1 hnew
      · exact absurd (heq ▸ (hs.holding _ _ _ hold₁).1) hnew
      · exact hs.distinct _ _ _ _ i hold₁ hold₂
    · exact hgrow.claimed
  · exact hgrow

theorem opening_process {T : Tquic κ} {isServer : Bool} {s s' : Streams κ}
    (hs : s.Opening isServer) (hside : s.bridge.cn.isServer = isServer)
    (hguard : s.FreshIds T .process) (hstep : s.step T .process = some s') :
    s'.Opening isServer := by
  obtain ⟨cmd, b, reply, hp, rfl⟩ := step_process hstep
  obtain ⟨_, hqueue, _, _, hproc⟩ := Bridge.process_some hp
  have hrest : Streams.Opening isServer { s with bridge := b } :=
    ⟨hs.fresh, fun c hc => hs.queue c (by simp [hqueue, hc]), hs.isLocal, hs.holding, hs.distinct,
      hs.claimed⟩
  obtain ⟨dir, id, rfl, _, hdir⟩ := hs.queue cmd (by simp [hqueue])
  rcases open_reply hproc with ⟨e, rfl⟩ | ⟨c, hc, i, hi, rfl⟩
  · exact opening_refused hrest id e
  · obtain ⟨hnew, hkind⟩ := hguard dir id (by simp [hqueue]) c hc i hi
    obtain ⟨hlocal, hd⟩ := (local_streamKind s.bridge.cn.isServer i dir).mpr hkind
    exact opening_granted hrest hdir hnew (hside ▸ hlocal) hd

theorem deliver_halves (s : Streams κ) (x : Option (Nat × Reply)) :
    SameHalves s ((s.recordOpened x).deliver x) := by
  obtain ⟨opens, opened, heq⟩ := s.deliver_frame x
  rw [heq]
  exact ⟨rfl, rfl, rfl, rfl⟩

theorem pollAccept_halves {isServer : Bool} {s s' : Streams κ} {id : Nat} {f : AcceptFuture}
    {branch : Branch} (hs : s.Owned isServer) (hf : s.accepts id = some f)
    (hstep : s.pollAccept id f.dir branch f.point = some s') :
    SameOpens s s' ∧ s'.created = s.created ∧ s'.Halves isServer := by
  have hkeep : SameOpens s s' → s'.created = s.created → SameHalves s s' →
      SameOpens s s' ∧ s'.created = s.created ∧ s'.Halves isServer :=
    fun h hc hh => ⟨h, hc, hs.halves.same hh⟩
  rcases f with ⟨dir, point⟩
  cases pollAccept_cases hstep with
  | returned => exact ⟨⟨rfl, rfl, rfl, rfl, rfl⟩, rfl, halves_accept hs hf⟩
  | _ => exact hkeep ⟨rfl, rfl, rfl, rfl, rfl⟩ rfl ⟨rfl, rfl, rfl, rfl⟩

theorem dropAccept_same {s s' : Streams κ} {id : Nat} {dir : Dir} {point : AcceptPoint}
    (hstep : s.dropAccept id dir point = some s') :
    SameOpens s s' ∧ s'.created = s.created ∧ SameHalves s s' := by
  unfold dropAccept at hstep
  split at hstep
  case h_4 => simp at hstep
  all_goals
    cases hstep
    exact ⟨⟨rfl, rfl, rfl, rfl, rfl⟩, rfl, ⟨rfl, rfl, rfl, rfl⟩⟩

theorem pollOpen_owned {isServer : Bool} {s s' : Streams κ} {id : Nat} {f : OpenFuture}
    (hs : s.Owned isServer) (hf : s.opens id = some f)
    (hstep : s.pollOpen id f.dir f.point = some s') :
    s'.Opening isServer ∧ s'.Halves isServer := by
  rcases f with ⟨dir, point⟩
  unfold pollOpen at hstep
  split at hstep
  case h_1 =>
    split at hstep <;> cases hstep
    · exact ⟨opening_advance hs.opening hf rfl (by simp) (by simp),
        hs.halves.same ⟨rfl, rfl, rfl, rfl⟩⟩
    · exact ⟨opening_advance hs.opening hf rfl (by simp) (by simp),
        hs.halves.same ⟨rfl, rfl, rfl, rfl⟩⟩
  case h_2 heq =>
    cases hstep
    simp only at heq
    subst heq
    exact ⟨opening_send hs.opening hf, hs.halves.same ⟨rfl, rfl, rfl, rfl⟩⟩
  case h_3 streamId heq =>
    cases hstep
    simp only at heq
    subst heq
    exact ⟨opening_complete hs.opening hf, halves_complete hs.halves hs.opening hf⟩
  case h_4 =>
    cases hstep
    exact ⟨opening_advance hs.opening hf rfl (by simp) (by simp),
      hs.halves.same ⟨rfl, rfl, rfl, rfl⟩⟩
  case h_5 => simp at hstep

theorem opening_new {isServer : Bool} {s : Streams κ} (hs : s.Opening isServer) (dir : Dir) :
    Streams.Opening isServer
      { s.setOpen s.next (some ⟨dir, .unsent⟩) with next := s.next + 1 } := by
  refine @Opening.set κ isServer s _ hs s.next (some ⟨dir, .unsent⟩) rfl
    (fun _ _ => Nat.lt_succ_self _) (by simp) ?_ (Nat.le_succ _) rfl rfl
  intro cmd hcmd
  refine @queue_update κ s _ s.next (some ⟨dir, .unsent⟩) hs.queue rfl ?_ (Nat.le_succ _) cmd hcmd
  intro _ _ hlt
  exact absurd hlt (Nat.lt_irrefl _)

theorem owned_bridge {T : Tquic κ} {isServer : Bool} {s s' : Streams κ} {e : BridgeEvent κ}
    (hs : s.Owned isServer) (hguard : s.FreshIds T (.bridge e))
    (hstep : s.step T (.bridge e) = some s') :
    s'.created.Nodup ∧ s'.Opening isServer ∧ s'.Halves isServer := by
  obtain ⟨b, hb, rfl⟩ := step_bridge hstep
  have hopening : Streams.Opening isServer { s with bridge := b } :=
    hs.opening.same ⟨rfl, (Bridge.step_cn hb).1, rfl, rfl, rfl⟩
  have hhalves : Streams.Halves isServer { s with bridge := b } :=
    hs.halves.same ⟨rfl, rfl, rfl, rfl⟩
  unfold recordCreated
  split
  · rename_i streamId
    refine ⟨?_, hopening.same ⟨rfl, rfl, rfl, rfl, rfl⟩, hhalves.same ⟨rfl, rfl, rfl, rfl⟩⟩
    have hnew : streamId ∉ s.created := hguard
    simpa [List.nodup_append, hs.created] using fun i hi => ne_of_mem_of_not_mem hi hnew
  · exact ⟨hs.created, hopening, hhalves⟩

theorem owned_parts {T : Tquic κ} {isServer : Bool} {s s' : Streams κ} {e : StreamsEvent κ}
    (hs : s.Owned isServer) (hguard : s.FreshIds T e) (hstep : s.step T e = some s') :
    s'.created.Nodup ∧ s'.Opening isServer ∧ s'.Halves isServer := by
  cases e with
  | process =>
    have hopening := opening_process hs.opening hs.side hguard hstep
    obtain ⟨cmd, b, reply, _, rfl⟩ := step_process hstep
    have hcreated := (deliver_same { s with bridge := b } reply).created
    have hsame := deliver_halves { s with bridge := b } reply
    have hhalves : Streams.Halves isServer { s with bridge := b } :=
      hs.halves.same ⟨rfl, rfl, rfl, rfl⟩
    refine ⟨?_, hopening, hhalves.same hsame⟩
    rw [hcreated]
    exact hs.created
  | bridge e => exact owned_bridge hs hguard hstep
  | accept id dir =>
    obtain ⟨_, rfl⟩ := step_accept hstep
    exact ⟨hs.created, hs.opening.same ⟨rfl, rfl, rfl, rfl, rfl⟩,
      hs.halves.same ⟨rfl, rfl, rfl, rfl⟩⟩
  | pollAccept id branch =>
    obtain ⟨f, hf, hpoll⟩ := step_pollAccept hstep
    obtain ⟨hsame, hcreated, hhalves⟩ := pollAccept_halves hs hf hpoll
    exact ⟨hcreated ▸ hs.created, hs.opening.same hsame, hhalves⟩
  | dropAccept id =>
    obtain ⟨f, _, hdrop⟩ := step_dropAccept hstep
    obtain ⟨hsame, hcreated, hhalves⟩ := dropAccept_same hdrop
    exact ⟨hcreated ▸ hs.created, hs.opening.same hsame, hs.halves.same hhalves⟩
  | openStream dir =>
    cases hstep
    exact ⟨hs.created, opening_new hs.opening dir, hs.halves.same ⟨rfl, rfl, rfl, rfl⟩⟩
  | pollOpen id =>
    obtain ⟨f, hf, hpoll⟩ := step_pollOpen hstep
    have hcreated := (pollOpen_same hpoll).created
    exact ⟨hcreated ▸ hs.created, pollOpen_owned hs hf hpoll⟩
  | dropOpen id =>
    obtain ⟨f, hf, hdrop⟩ := step_dropOpen hstep
    simp only [dropOpen] at hdrop
    split at hdrop
    · simp at hdrop
    · cases hdrop
      exact ⟨hs.created, opening_advance hs.opening hf rfl (by simp) (by simp),
        hs.halves.same ⟨rfl, rfl, rfl, rfl⟩⟩

theorem owned_step {T : Tquic κ} {isServer : Bool} {s s' : Streams κ} {e : StreamsEvent κ}
    (hs : s.Owned isServer) (hguard : s.FreshIds T e) (hstep : s.step T e = some s') :
    s'.Owned isServer := by
  obtain ⟨hcreated, hopening, hhalves⟩ := owned_parts hs hguard hstep
  exact ⟨(isServer_step hstep).trans hs.side, inOrder_step hs.inOrder hstep, hcreated, hopening,
    hhalves⟩

theorem owned_init (conn : κ) (remoteAddr : SocketAddr) (isServer : Bool) :
    (init conn remoteAddr isServer).Owned isServer where
  side := rfl
  inOrder := inOrder_init conn remoteAddr isServer
  created := List.nodup_nil
  opening := by constructor <;> simp [init, Holding]
  halves := by constructor <;> simp [init]

theorem owned_reach {T : Tquic κ} {isServer : Bool} {s t : Streams κ}
    (h : Reach (step T) (FreshIds T) s t) (hs : s.Owned isServer) : t.Owned isServer :=
  h.invariant (fun _ _ _ hI hg hstep => owned_step hI hg hstep) hs

theorem Owned.delivered_dir {isServer : Bool} {s : Streams κ} (hs : s.Owned isServer) {dir : Dir}
    {i : Nat} (hi : i ∈ s.delivered dir) : streamDir i = dir := by
  obtain ⟨hand, _, hbooks⟩ := hs.inOrder.ordered dir
  have hmem : i ∈ s.peerCreated dir := by
    rw [hbooks]
    exact List.mem_append_left _ hi
  have hboth : peerInitiated s.bridge.cn.isServer i = true ∧ streamDir i = dir := by
    simpa using (List.mem_filter.mp hmem).2
  exact hboth.2

/-- No half is constructed twice. The peer's unidirectional streams have no sending half, and
the own ones no receiving half. -/
theorem halves_owned (T : Tquic κ) (conn : κ) (remoteAddr : SocketAddr) (isServer : Bool)
    (s : Streams κ) (hs : Reach (step T) (FreshIds T) (init conn remoteAddr isServer) s) :
    s.sends.Nodup ∧ s.recvs.Nodup ∧
    (∀ i ∈ s.sends, i % 4 ≠ streamKind (!isServer) .uni) ∧
    ∀ i ∈ s.recvs, i % 4 ≠ streamKind isServer .uni := by
  have howned := owned_reach hs (owned_init conn remoteAddr isServer)
  refine ⟨howned.halves.sends_nodup, howned.halves.recvs_nodup, fun i hi hkind => ?_,
    fun i hi hkind => ?_⟩
  · obtain ⟨hpeer, huni⟩ := (peer_streamKind isServer i .uni).mpr hkind
    rcases howned.halves.sends i hi with ⟨_, hdelivered⟩ | ⟨hlocal, _⟩
    · rw [howned.delivered_dir hdelivered] at huni
      cases huni
    · rw [hlocal] at hpeer
      cases hpeer
  · obtain ⟨hlocal, huni⟩ := (local_streamKind isServer i .uni).mpr hkind
    rcases howned.halves.recvs i hi with ⟨hpeer, _⟩ | ⟨_, _, hbi⟩
    · rw [hpeer] at hlocal
      cases hlocal
    · rw [hbi] at huni
      cases huni

/-- One side opens a unidirectional stream and accepts a bidirectional one of its peer. -/
def bothRun (peerId : Nat) : List (StreamsEvent Script) :=
  [.openStream .uni, .pollOpen 0, .pollOpen 0, .process, .pollOpen 0,
    .bridge (.callback (.onStreamCreated peerId)), .bridge .exec, .bridge .exec, .bridge .exec,
    .accept 0 .bi, .pollAccept 0 .recv, .pollAccept 0 .recv, .pollAccept 0 .recv,
    .pollAccept 0 .recv, .pollAccept 0 .recv]

/-- A server opens stream 3 and accepts stream 0; a client opens stream 2 and accepts stream 1. -/
theorem halves_owned_both :
    (∃ s, run (step Tquic.scripted) (init { opens := [3] } .unspecified true) (bothRun 0) =
        some s ∧ s.sends = [3, 0] ∧ s.recvs = [0] ∧ s.sends.Nodup ∧ s.recvs.Nodup) ∧
    ∃ s, run (step Tquic.scripted) (init { opens := [2] } .unspecified false) (bothRun 1) =
        some s ∧ s.sends = [2, 1] ∧ s.recvs = [1] ∧ s.sends.Nodup ∧ s.recvs.Nodup := by
  constructor
  · obtain ⟨s, hrun, hsends, hrecvs, hfresh⟩ :
        ∃ s, run (step Tquic.scripted) (init { opens := [3] } .unspecified true) (bothRun 0) =
          some s ∧ s.sends = [3, 0] ∧ s.recvs = [0] ∧
        Along (step Tquic.scripted) (FreshIds Tquic.scripted)
          (init { opens := [3] } .unspecified true) (bothRun 0) := by
      refine ⟨_, rfl, rfl, rfl, trivial, trivial, trivial, ?_, trivial, List.not_mem_nil, trivial,
        trivial, trivial, trivial, trivial, trivial, trivial, trivial, trivial, trivial⟩
      intro dir id hhead c hc i hi
      cases hc
      cases dir with
      | bi => cases hhead
      | uni =>
        cases hi
        exact ⟨List.not_mem_nil, rfl⟩
    have howned := halves_owned Tquic.scripted _ _ _ s (reach_of_along hrun hfresh)
    exact ⟨s, hrun, hsends, hrecvs, howned.1, howned.2.1⟩
  · obtain ⟨s, hrun, hsends, hrecvs, hfresh⟩ :
        ∃ s, run (step Tquic.scripted) (init { opens := [2] } .unspecified false) (bothRun 1) =
          some s ∧ s.sends = [2, 1] ∧ s.recvs = [1] ∧
        Along (step Tquic.scripted) (FreshIds Tquic.scripted)
          (init { opens := [2] } .unspecified false) (bothRun 1) := by
      refine ⟨_, rfl, rfl, rfl, trivial, trivial, trivial, ?_, trivial, List.not_mem_nil, trivial,
        trivial, trivial, trivial, trivial, trivial, trivial, trivial, trivial, trivial⟩
      intro dir id hhead c hc i hi
      cases hc
      cases dir with
      | bi => cases hhead
      | uni =>
        cases hi
        exact ⟨List.not_mem_nil, rfl⟩
    have howned := halves_owned Tquic.scripted _ _ _ s (reach_of_along hrun hfresh)
    exact ⟨s, hrun, hsends, hrecvs, howned.1, howned.2.1⟩

end Streams

end TokioTquic
