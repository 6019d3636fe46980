import TokioTquic.Streams

/-!
# Accepted streams come in order

The lock around a receiver has one holder, which takes one id and returns it
before it gives the lock up. So the ids created by the peer are, in order, those
delivered, the one in the holder's hand, and those still queued.
-/

namespace TokioTquic
open Async
set_option autoImplicit false

universe u
variable {κ : Type u}

def AcceptPoint.Holds : AcceptPoint → Prop
  | .selecting | .taken _ | .changed => True
  | _ => False

namespace Streams

/-- Who is past the lock holds it. -/
def Held (s : Streams κ) : Prop :=
  ∀ id f, s.accepts id = some f → f.point.Holds →
    (s.bridge.cn.acceptLock f.dir).holder = some id

/-- The ids of this direction the peer created, in creation order. -/
def peerCreated (s : Streams κ) (dir : Dir) : List Nat :=
  s.created.filter fun streamId =>
    peerInitiated s.bridge.cn.isServer streamId && streamDir streamId == dir

/-- `hand` is what the futures of this direction have taken and not delivered. -/
def InHand (s : Streams κ) (dir : Dir) (hand : List Nat) : Prop :=
  (∀ id streamId, s.accepts id = some ⟨dir, .taken streamId⟩ → hand = [streamId]) ∧
    (hand ≠ [] → ∃ id streamId, s.accepts id = some ⟨dir, .taken streamId⟩)

def Ordered (s : Streams κ) : Prop :=
  ∀ dir, ∃ hand, s.InHand dir hand ∧
    s.peerCreated dir = s.delivered dir ++ (hand ++
      (s.bridge.cn.acceptQueue dir ++ pendingAccepts s.bridge.todo dir))

theorem Held.set {s s' : Streams κ} (hs : s.Held) (id : Nat) (f' : Option AcceptFuture)
    (haccepts : s'.accepts = Function.update s.accepts id f')
    (hself : ∀ g ∈ f', g.point.Holds → (s'.bridge.cn.acceptLock g.dir).holder = some id)
    (hothers : ∀ id' dir, id' ≠ id → (s.bridge.cn.acceptLock dir).holder = some id' →
      (s'.bridge.cn.acceptLock dir).holder = some id') : s'.Held := by
  intro id' g hg hholds
  by_cases hid : id' = id
  · subst hid
    rw [haccepts, Function.update_self] at hg
    exact hself g hg hholds
  · rw [haccepts, Function.update_of_ne hid] at hg
    exact hothers id' g.dir hid (hs id' g hg hholds)

theorem Ordered.keep {s s' : Streams κ} (hs : s.Ordered) (hcreated : s'.created = s.created)
    (hserver : s'.bridge.cn.isServer = s.bridge.cn.isServer)
    (hdelivered : s'.delivered = s.delivered)
    (hqueue : ∀ dir, s'.bridge.cn.acceptQueue dir ++ pendingAccepts s'.bridge.todo dir =
      s.bridge.cn.acceptQueue dir ++ pendingAccepts s.bridge.todo dir)
    (htaken : ∀ id dir streamId, s'.accepts id = some ⟨dir, .taken streamId⟩ ↔
      s.accepts id = some ⟨dir, .taken streamId⟩) : s'.Ordered := by
  intro dir
  obtain ⟨hand, hhand, hbooks⟩ := hs dir
  refine ⟨hand, ?_, ?_⟩
  · simpa only [InHand, htaken] using hhand
  · rw [hdelivered, hqueue dir, ← hbooks]
    simp only [peerCreated, hcreated, hserver]

theorem taken_update {s s' : Streams κ} {id : Nat} {f f' : Option AcceptFuture}
    (hf : s.accepts id = f) (haccepts : s'.accepts = Function.update s.accepts id f')
    (hold : ∀ dir streamId, f ≠ some ⟨dir, .taken streamId⟩)
    (hnew : ∀ dir streamId, f' ≠ some ⟨dir, .taken streamId⟩) (id' : Nat) (dir : Dir)
    (streamId : Nat) :
    s'.accepts id' = some ⟨dir, .taken streamId⟩ ↔ s.accepts id' = some ⟨dir, .taken streamId⟩ := by
  rw [haccepts]
  by_cases hid : id' = id
  · subst hid
    rw [Function.update_self, hf]
    exact ⟨fun h => absurd h (hnew dir streamId), fun h => absurd h (hold dir streamId)⟩
  · rw [Function.update_of_ne hid]

structure InOrder (s : Streams κ) : Prop where
  held : s.Held
  ordered : s.Ordered

theorem InOrder.set {s s' : Streams κ} (hs : s.InOrder) {id : Nat} {f f' : Option AcceptFuture}
    (hf : s.accepts id = f) (haccepts : s'.accepts = Function.update s.accepts id f')
    (hold : ∀ dir streamId, f ≠ some ⟨dir, .taken streamId⟩)
    (hnew : ∀ dir streamId, f' ≠ some ⟨dir, .taken streamId⟩)
    (hself : ∀ g ∈ f', g.point.Holds → (s'.bridge.cn.acceptLock g.dir).holder = some id)
    (hothers : ∀ id' dir, id' ≠ id → (s.bridge.cn.acceptLock dir).holder = some id' →
      (s'.bridge.cn.acceptLock dir).holder = some id')
    (hcreated : s'.created = s.created) (hdelivered : s'.delivered = s.delivered)
    (hserver : s'.bridge.cn.isServer = s.bridge.cn.isServer)
    (hqueue : ∀ dir, s'.bridge.cn.acceptQueue dir = s.bridge.cn.acceptQueue dir)
    (htodo : s'.bridge.todo = s.bridge.todo) : s'.InOrder :=
  ⟨hs.held.set id f' haccepts hself hothers,
    hs.ordered.keep hcreated hserver hdelivered (fun dir => by rw [hqueue dir, htodo])
      (taken_update hf haccepts hold hnew)⟩

theorem setAcceptLock_others {cn : ConnNotify} {dir : Dir} {lock : Mutex Nat} {id : Nat}
    (hkeep : ∀ id', id' ≠ id → (cn.acceptLock dir).holder = some id' → lock.holder = some id')
    (id' : Nat) (d : Dir) (hid : id' ≠ id) (h : (cn.acceptLock d).holder = some id') :
    ((cn.setAcceptLock lock dir).acceptLock d).holder = some id' := by
  by_cases hd : d = dir
  · subst hd
    simpa using hkeep id' hid h
  · simpa [hd] using h

theorem release_others {cn : ConnNotify} {dir : Dir} {lock : Mutex Nat} {id : Nat}
    (hholder : (cn.acceptLock dir).holder = some id) (id' : Nat) (d : Dir) (hid : id' ≠ id)
    (h : (cn.acceptLock d).holder = some id') :
    ((cn.setAcceptLock lock dir).acceptLock d).holder = some id' :=
  setAcceptLock_others (fun _ hne h' => absurd (Option.some.inj (h'.symm.trans hholder)) hne)
    id' d hid h

theorem hand_nil {s : Streams κ} (hs : s.Held) {id : Nat} {dir : Dir} {hand : List Nat}
    (hhand : s.InHand dir hand) (hf : s.accepts id = some ⟨dir, .selecting⟩) : hand = [] := by
  by_contra hne
  obtain ⟨id', streamId, hf'⟩ := hhand.2 hne
  have h1 : (s.bridge.cn.acceptLock dir).holder = some id := hs id _ hf trivial
  have h2 : (s.bridge.cn.acceptLock dir).holder = some id' := hs id' _ hf' trivial
  obtain rfl : id = id' := Option.some.inj (h1.symm.trans h2)
  simp [hf] at hf'

theorem inOrder_take {s : Streams κ} {id streamId : Nat} {dir : Dir} {queue : List Nat}
    (hs : s.InOrder) (hf : s.accepts id = some ⟨dir, .selecting⟩)
    (hqueue : s.bridge.cn.acceptQueue dir = streamId :: queue) :
    ((s.setCn (s.bridge.cn.setAcceptQueue queue dir)).setAccept id
      (some ⟨dir, .taken streamId⟩)).InOrder := by
  have hholder : (s.bridge.cn.acceptLock dir).holder = some id := hs.held id _ hf trivial
  constructor
  · apply hs.held.set id _ rfl
    · intro g hg _
      obtain rfl := Option.mem_some.mp hg
      simpa using hholder
    · intro id' d _ h
      simpa using h
  · intro d
    obtain ⟨hand, hhand, hbooks⟩ := hs.ordered d
    by_cases hd : d = dir
    · subst hd
      obtain rfl := hand_nil hs.held hhand hf
      refine ⟨[streamId], ⟨?_, fun _ => ⟨id, streamId, by simp [setAccept]⟩⟩, ?_⟩
      · intro id' streamId' hf'
        by_cases hid : id' = id
        · subst hid
          simpa [setAccept, eq_comm] using hf'
        · have hf₀ : s.accepts id' = some ⟨d, .taken streamId'⟩ := by
            simpa [setAccept, setCn, hid] using hf'
          have hholder' := hs.held id' _ hf₀ trivial
          exact absurd (Option.some.inj (hholder'.symm.trans hholder)) hid
      · simpa [peerCreated, setCn, setAccept, hqueue] using hbooks
    · refine ⟨hand, ⟨?_, fun hne => ?_⟩, ?_⟩
      · intro id' streamId' hf'
        apply hhand.1 id' streamId'
        by_cases hid : id' = id
        · subst hid
          have hdir : d = dir := by
            have h : dir = d ∧ streamId = streamId' := by simpa [setAccept] using hf'
            exact h.1.symm
          exact absurd hdir hd
        · simpa [setAccept, setCn, hid] using hf'
      · obtain ⟨id', streamId', hf'⟩ := hhand.2 hne
        refine ⟨id', streamId', ?_⟩
        have hid : id' ≠ id := by
          rintro rfl
          simp [hf] at hf'
        simpa [setAccept, setCn, hid] using hf'
      · simpa [peerCreated, setCn, setAccept, hd] using hbooks

theorem inOrder_return {s : Streams κ} {id streamId : Nat} {dir : Dir} (hs : s.InOrder)
    (hf : s.accepts id = some ⟨dir, .taken streamId⟩) :
    (s.completeAccept id dir streamId).InOrder := by
  have hholder : (s.bridge.cn.acceptLock dir).holder = some id := hs.held id _ hf trivial
  constructor
  · exact hs.held.set id none rfl (by simp) (release_others hholder)
  · intro d
    obtain ⟨hand, hhand, hbooks⟩ := hs.ordered d
    have hcn : (s.completeAccept id dir streamId).bridge.cn =
      s.bridge.cn.setAcceptLock (s.bridge.cn.acceptLock dir).release dir := rfl
    have hold : ∀ id' streamId',
        (s.completeAccept id dir streamId).accepts id' = some ⟨d, .taken streamId'⟩ →
        id' ≠ id ∧ s.accepts id' = some ⟨d, .taken streamId'⟩ := by
      intro id' streamId' hf'
      have hid : id' ≠ id := by
        rintro rfl
        simp [completeAccept, construct, release, setCn, setAccept] at hf'
      exact ⟨hid, by simpa [completeAccept, construct, release, setCn, setAccept, hid] using hf'⟩
    by_cases hd : d = dir
    · subst hd
      obtain rfl := hhand.1 id streamId hf
      refine ⟨[], ⟨?_, by simp⟩, ?_⟩
      · intro id' streamId' hf'
        obtain ⟨hid, hf₀⟩ := hold id' streamId' hf'
        have hholder' := hs.held id' _ hf₀ trivial
        exact absurd (Option.some.inj (hholder'.symm.trans hholder)) hid
      · simp only [peerCreated, hcn, ConnNotify.setAcceptLock_isServer,
          ConnNotify.setAcceptLock_queue]
        simpa [peerCreated, completeAccept, construct, release, setCn, setAccept] using hbooks
    · refine ⟨hand, ⟨?_, fun hne => ?_⟩, ?_⟩
      · intro id' streamId' hf'
        exact hhand.1 id' streamId' (hold id' streamId' hf').2
      · obtain ⟨id', streamId', hf'⟩ := hhand.2 hne
        have hid : id' ≠ id := by
          rintro rfl
          rw [hf] at hf'
          exact hd (by simpa [eq_comm] using (congrArg (·.map AcceptFuture.dir) hf'))
        exact ⟨id', streamId',
          by simpa [completeAccept, construct, release, setCn, setAccept, hid] using hf'⟩
      · simp only [peerCreated, hcn, ConnNotify.setAcceptLock_isServer,
          ConnNotify.setAcceptLock_queue]
        simpa [peerCreated, completeAccept, construct, release, setCn, setAccept, hd] using hbooks

theorem inOrder_release {s s' : Streams κ} {id : Nat} {dir : Dir} {f' : Option AcceptFuture}
    {point : AcceptPoint} (hs : s.InOrder) (hf : s.accepts id = some ⟨dir, point⟩)
    (hholds : point.Holds) (hold : ∀ streamId, point ≠ .taken streamId)
    (hnew : ∀ g ∈ f', ¬ g.point.Holds) (hs' : s' = (s.setAccept id f').release dir) :
    s'.InOrder := by
  have hholder : (s.bridge.cn.acceptLock dir).holder = some id := hs.held id _ hf hholds
  subst hs'
  refine hs.set hf rfl ?_ ?_ ?_ (release_others hholder) rfl rfl ?_ ?_ rfl
  · intro d streamId heq
    simp only [Option.some.injEq, AcceptFuture.mk.injEq] at heq
    exact hold streamId heq.2
  · rintro d streamId rfl
    exact hnew _ rfl trivial
  · intro g hg hg'
    exact absurd hg' (hnew g hg)
  · simp
  · intro d
    simp

inductive AcceptPolled (s : Streams κ) (id : Nat) (dir : Dir) :
    AcceptPoint → Streams κ → Prop where
  | moved {point : AcceptPoint} {f' : Option AcceptFuture} :
      (∀ streamId, point ≠ .taken streamId) →
      (∀ d streamId, f' ≠ some ⟨d, .taken streamId⟩) →
      (∀ g ∈ f', g.point.Holds →
        g.dir = dir ∧ (point.Holds ∨ (s.bridge.cn.acceptLock dir).holder = some id)) →
        AcceptPolled s id dir point (s.setAccept id f')
  | granted :
      (s.bridge.cn.acceptLock dir).holder = none →
        AcceptPolled s id dir .lock
          ((s.setCn (s.bridge.cn.setAcceptLock ((s.bridge.cn.acceptLock dir).lock id) dir)).setAccept
            id (some ⟨dir, .selecting⟩))
  | queued {v : Nat} :
      (s.bridge.cn.acceptLock dir).holder = some v →
        AcceptPolled s id dir .lock
          ((s.setCn (s.bridge.cn.setAcceptLock ((s.bridge.cn.acceptLock dir).lock id) dir)).setAccept
            id (some ⟨dir, .waiting⟩))
  | took {streamId : Nat} {queue : List Nat} :
      s.bridge.cn.acceptQueue dir = streamId :: queue →
        AcceptPolled s id dir .selecting
          ((s.setCn (s.bridge.cn.setAcceptQueue queue dir)).setAccept id
            (some ⟨dir, .taken streamId⟩))
  | returned {streamId : Nat} :
      AcceptPolled s id dir (.taken streamId) (s.completeAccept id dir streamId)
  | released {f' : Option AcceptFuture} :
      (∀ g ∈ f', ¬ g.point.Holds) →
        AcceptPolled s id dir .changed ((s.setAccept id f').release dir)

theorem pollAccept_cases {s s' : Streams κ} {id : Nat} {dir : Dir} {branch : Branch}
    {point : AcceptPoint} (hstep : s.pollAccept id dir branch point = some s') :
    AcceptPolled s id dir point s' := by
  cases point with
  | begin =>
    cases hstep
    exact .moved (by simp) (by simp) (by simp [AcceptPoint.Holds])
  | check =>
    simp only [pollAccept] at hstep
    split at hstep
    · cases hstep
      exact .moved (by simp) (by simp) (by simp)
    · cases hstep
      exact .moved (by simp) (by simp) (by simp [AcceptPoint.Holds])
  | lock =>
    simp only [pollAccept] at hstep
    split at hstep
    · rename_i hfree
      cases hstep
      exact .granted hfree
    · rename_i hbusy
      cases hstep
      exact .queued hbusy
  | waiting =>
    simp only [pollAccept] at hstep
    split at hstep
    · rename_i hgot
      cases hstep
      exact .moved (by simp) (by simp) (by simp [AcceptPoint.Holds, hgot])
    · simp at hstep
  | selecting =>
    cases branch with
    | recv =>
      simp only [pollAccept] at hstep
      split at hstep
      · simp at hstep
      · rename_i hqueue
        cases hstep
        exact .took hqueue
    | closed =>
      simp only [pollAccept] at hstep
      split at hstep
      · cases hstep
        exact .moved (by simp) (by simp) (by simp [AcceptPoint.Holds])
      · simp at hstep
  | taken streamId =>
    cases hstep
    exact .returned
  | changed =>
    simp only [pollAccept] at hstep
    split at hstep
    · cases hstep
      exact .released (by simp)
    · cases hstep
      exact .released (by simp [AcceptPoint.Holds])

theorem inOrder_pollAccept {s s' : Streams κ} {id : Nat} {f : AcceptFuture} {branch : Branch}
    (hs : s.InOrder) (hf : s.accepts id = some f)
    (hstep : s.pollAccept id f.dir branch f.point = some s') : s'.InOrder := by
  rcases f with ⟨dir, point⟩
  cases pollAccept_cases hstep with
  | moved hold hnew hself =>
    refine hs.set hf rfl ?_ hnew ?_ (fun _ _ _ h => h) rfl rfl rfl (fun _ => rfl) rfl
    · intro d streamId heq
      cases heq
      exact hold streamId rfl
    · intro g hg hholds
      obtain ⟨hdir, hlast | hnow⟩ := hself g hg hholds
      · exact hdir ▸ hs.held id _ hf hlast
      · exact hdir ▸ hnow
  | granted hfree =>
    refine hs.set hf rfl (by simp) (by simp) ?_ ?_ rfl rfl (by simp) (fun d => by simp) rfl
    · simp [Mutex.lock, hfree]
    · exact setAcceptLock_others fun id' _ h => by simp [hfree] at h
  | queued hbusy =>
    refine hs.set hf rfl (by simp) (by simp) (by simp [AcceptPoint.Holds]) ?_ rfl rfl
      (by simp) (fun d => by simp) rfl
    exact setAcceptLock_others fun id' _ h => Mutex.lock_holder h id
  | took hqueue => exact inOrder_take hs hf hqueue
  | returned => exact inOrder_return hs hf
  | released hnew => exact inOrder_release hs hf trivial (by simp) hnew rfl

theorem inOrder_dropAccept {s s' : Streams κ} {id : Nat} {f : AcceptFuture} (hs : s.InOrder)
    (hf : s.accepts id = some f) (hstep : s.dropAccept id f.dir f.point = some s') :
    s'.InOrder := by
  rcases f with ⟨dir, point⟩
  cases point with
  | begin =>
    cases hstep
    exact hs.set hf rfl (by simp) (by simp) (by simp) (fun _ _ _ h => h)
      rfl rfl rfl (fun _ => rfl) rfl
  | waiting =>
    cases hstep
    refine hs.set hf rfl (by simp) (by simp) (by simp) ?_ rfl rfl (by simp) (fun d => by simp) rfl
    exact setAcceptLock_others fun id' hid h => Mutex.abandon_holder h hid
  | selecting =>
    cases hstep
    exact inOrder_release hs hf trivial (by simp) (by simp) rfl
  | check => simp [dropAccept] at hstep
  | lock => simp [dropAccept] at hstep
  | taken streamId => simp [dropAccept] at hstep
  | changed => simp [dropAccept] at hstep

/-- Opening a stream does not touch what accepting one is about. -/
structure SameAccepts (s s' : Streams κ) : Prop where
  accepts : s'.accepts = s.accepts
  cn : s'.bridge.cn = s.bridge.cn
  todo : s'.bridge.todo = s.bridge.todo
  created : s'.created = s.created
  delivered : s'.delivered = s.delivered

theorem InOrder.same {s s' : Streams κ} (hs : s.InOrder) (hsame : SameAccepts s s') :
    s'.InOrder := by
  constructor
  · intro id f hf hholds
    rw [hsame.cn]
    rw [hsame.accepts] at hf
    exact hs.held id f hf hholds
  · exact hs.ordered.keep hsame.created (by rw [hsame.cn]) hsame.delivered
      (fun dir => by rw [hsame.cn, hsame.todo]) (fun id dir streamId => by rw [hsame.accepts])

theorem pollOpen_same {s s' : Streams κ} {id : Nat} {dir : Dir} {point : OpenPoint}
    (hstep : s.pollOpen id dir point = some s') : SameAccepts s s' := by
  unfold pollOpen at hstep
  split at hstep
  · split at hstep <;> obtain rfl := Option.some.inj hstep <;> exact ⟨rfl, rfl, rfl, rfl, rfl⟩
  · cases hstep
    exact ⟨rfl, rfl, rfl, rfl, rfl⟩
  · cases hstep
    exact ⟨rfl, rfl, rfl, rfl, rfl⟩
  · cases hstep
    exact ⟨rfl, rfl, rfl, rfl, rfl⟩
  · simp at hstep

theorem dropOpen_same {s s' : Streams κ} {id : Nat} {point : OpenPoint}
    (hstep : s.dropOpen id point = some s') : SameAccepts s s' := by
  unfold dropOpen at hstep
  split at hstep
  · simp at hstep
  · cases hstep
    exact ⟨rfl, rfl, rfl, rfl, rfl⟩

theorem deliver_frame (s : Streams κ) (x : Option (Nat × Reply)) :
    ∃ opens opened, (s.recordOpened x).deliver x = { s with opens := opens, opened := opened } := by
  have hrecord : ∃ opened, s.recordOpened x = { s with opened := opened } := by
    unfold recordOpened
    split <;> exact ⟨_, rfl⟩
  have hdeliver : ∀ t : Streams κ, ∃ opens, t.deliver x = { t with opens := opens } := by
    intro t
    unfold deliver
    split
    · split <;> exact ⟨_, rfl⟩
    · exact ⟨_, rfl⟩
  obtain ⟨opened, hopened⟩ := hrecord
  obtain ⟨opens, hopens⟩ := hdeliver (s.recordOpened x)
  refine ⟨opens, opened, ?_⟩
  rw [hopens, hopened]

theorem deliver_same (s : Streams κ) (x : Option (Nat × Reply)) :
    SameAccepts s ((s.recordOpened x).deliver x) := by
  obtain ⟨opens, opened, heq⟩ := s.deliver_frame x
  rw [heq]
  exact ⟨rfl, rfl, rfl, rfl, rfl⟩

theorem step_process {T : Tquic κ} {s s' : Streams κ} (hs : s.step T .process = some s') :
    ∃ cmd b reply, s.bridge.process T = some (cmd, b, reply) ∧
      s' = ({ s with bridge := b }.recordOpened reply).deliver reply := by
  simp only [step] at hs
  split at hs
  · rename_i cmd b reply hp
    exact ⟨cmd, b, reply, hp, (Option.some.inj hs).symm⟩
  · simp at hs

theorem step_bridge {T : Tquic κ} {s s' : Streams κ} {e : BridgeEvent κ}
    (hs : s.step T (.bridge e) = some s') :
    ∃ b, s.bridge.step e = some b ∧ s' = { s with bridge := b }.recordCreated e := by
  simp only [step] at hs
  split at hs
  · rename_i b hb
    exact ⟨b, hb, (Option.some.inj hs).symm⟩
  · simp at hs

theorem step_accept {T : Tquic κ} {s s' : Streams κ} {id : Nat} {dir : Dir}
    (hs : s.step T (.accept id dir) = some s') :
    s.accepts id = none ∧ s' = s.setAccept id (some ⟨dir, .begin⟩) := by
  simp only [step] at hs
  split at hs
  · rename_i hnone
    exact ⟨hnone, (Option.some.inj hs).symm⟩
  · simp at hs

theorem step_pollAccept {T : Tquic κ} {s s' : Streams κ} {id : Nat} {branch : Branch}
    (hs : s.step T (.pollAccept id branch) = some s') :
    ∃ f, s.accepts id = some f ∧ s.pollAccept id f.dir branch f.point = some s' := by
  simp only [step] at hs
  split at hs
  · exact ⟨_, ‹_›, hs⟩
  · simp at hs

theorem step_dropAccept {T : Tquic κ} {s s' : Streams κ} {id : Nat}
    (hs : s.step T (.dropAccept id) = some s') :
    ∃ f, s.accepts id = some f ∧ s.dropAccept id f.dir f.point = some s' := by
  simp only [step] at hs
  split at hs
  · exact ⟨_, ‹_›, hs⟩
  · simp at hs

theorem step_pollOpen {T : Tquic κ} {s s' : Streams κ} {id : Nat}
    (hs : s.step T (.pollOpen id) = some s') :
    ∃ f, s.opens id = some f ∧ s.pollOpen id f.dir f.point = some s' := by
  simp only [step] at hs
  split at hs
  · exact ⟨_, ‹_›, hs⟩
  · simp at hs

theorem step_dropOpen {T : Tquic κ} {s s' : Streams κ} {id : Nat}
    (hs : s.step T (.dropOpen id) = some s') :
    ∃ f, s.opens id = some f ∧ s.dropOpen id f.point = some s' := by
  simp only [step] at hs
  split at hs
  · exact ⟨_, ‹_›, hs⟩
  · simp at hs

theorem inOrder_callback {s : Streams κ} (hs : s.InOrder) (htodo : s.bridge.todo = [])
    (cb : Callback) :
    ({ s with bridge := { s.bridge with todo := cb.ops s.bridge.cn.isServer } }.recordCreated
      (.callback cb)).InOrder := by
  have hother : (pendingAccepts (cb.ops s.bridge.cn.isServer) = fun _ => []) →
      Streams.InOrder { s with bridge := { s.bridge with todo := cb.ops s.bridge.cn.isServer } } := by
    intro hnone
    refine ⟨hs.held, hs.ordered.keep rfl rfl rfl (fun dir => ?_) (fun _ _ _ => Iff.rfl)⟩
    simp only [hnone, htodo]
    rfl
  cases cb with
  | onStreamCreated streamId =>
    refine ⟨hs.held, fun dir => ?_⟩
    obtain ⟨hand, hhand, hbooks⟩ := hs.ordered dir
    refine ⟨hand, hhand, ?_⟩
    simp only [recordCreated, pendingAccepts_ops]
    simp only [peerCreated, htodo] at hbooks ⊢
    rw [List.filter_append, hbooks]
    by_cases hp : peerInitiated s.bridge.cn.isServer streamId <;>
      by_cases hd : streamDir streamId = dir <;> simp [pendingAccepts, hp, hd]
  | onConnEstablished => exact hother (funext fun dir => pendingAccepts_ops _ _ dir)
  | onConnClosed info => exact hother (funext fun dir => pendingAccepts_ops _ _ dir)
  | onStreamReadable streamId => exact hother (funext fun dir => pendingAccepts_ops _ _ dir)
  | onStreamWritable streamId => exact hother (funext fun dir => pendingAccepts_ops _ _ dir)
  | onStreamClosed streamId => exact hother (funext fun dir => pendingAccepts_ops _ _ dir)

theorem inOrder_step {T : Tquic κ} {s s' : Streams κ} {e : StreamsEvent κ} (hs : s.InOrder)
    (hstep : s.step T e = some s') : s'.InOrder := by
  cases e with
  | process =>
    obtain ⟨cmd, b, reply, hp, rfl⟩ := step_process hstep
    obtain ⟨htodo, _, hcn, htodo', _⟩ := Bridge.process_some hp
    have hsame := deliver_same { s with bridge := b } reply
    exact hs.same ⟨hsame.accepts, hsame.cn.trans hcn, hsame.todo.trans (htodo'.trans htodo.symm),
      hsame.created, hsame.delivered⟩
  | bridge e =>
    obtain ⟨b, hb, rfl⟩ := step_bridge hstep
    cases e with
    | engine conn =>
      obtain ⟨_, _, rfl⟩ := Bridge.step_engine hb
      exact hs.same ⟨rfl, rfl, rfl, rfl, rfl⟩
    | callback cb =>
      obtain ⟨htodo, rfl⟩ := Bridge.step_callback hb
      exact inOrder_callback hs htodo cb
    | exec =>
      obtain ⟨op, todo, htodo, rfl⟩ := Bridge.step_exec hb
      have hop := exec_accept s.bridge.cn op todo
      constructor
      · intro id f hf hholds
        have hlock := (hop f.dir).2.1
        exact hlock ▸ hs.held id f hf hholds
      · refine hs.ordered.keep rfl (hop .bi).2.2 rfl (fun dir => ?_) (fun _ _ _ => Iff.rfl)
        rw [htodo]
        exact (hop dir).1
  | accept id dir =>
    obtain ⟨hnone, rfl⟩ := step_accept hstep
    exact hs.set hnone rfl (by simp) (by simp) (by simp [AcceptPoint.Holds]) (fun _ _ _ h => h)
      rfl rfl rfl (fun _ => rfl) rfl
  | pollAccept id branch =>
    obtain ⟨f, hf, hpoll⟩ := step_pollAccept hstep
    exact inOrder_pollAccept hs hf hpoll
  | dropAccept id =>
    obtain ⟨f, hf, hdrop⟩ := step_dropAccept hstep
    exact inOrder_dropAccept hs hf hdrop
  | openStream dir =>
    cases hstep
    exact hs.same ⟨rfl, rfl, rfl, rfl, rfl⟩
  | pollOpen id =>
    obtain ⟨f, _, hpoll⟩ := step_pollOpen hstep
    exact hs.same (pollOpen_same hpoll)
  | dropOpen id =>
    obtain ⟨f, _, hdrop⟩ := step_dropOpen hstep
    exact hs.same (dropOpen_same hdrop)

theorem inOrder_init (conn : κ) (remoteAddr : SocketAddr) (isServer : Bool) :
    (init conn remoteAddr isServer).InOrder := by
  constructor
  · intro id f hf
    simp [init] at hf
  · intro dir
    refine ⟨[], ⟨by simp [init], by simp⟩, ?_⟩
    cases dir <;> rfl

theorem inOrder_reach {T : Tquic κ} {guard : Streams κ → StreamsEvent κ → Prop} {s t : Streams κ}
    (h : Reach (step T) guard s t) (hs : s.InOrder) : t.InOrder :=
  h.invariant (fun _ _ _ hI _ hstep => inOrder_step hI hstep) hs

theorem pollAccept_isServer {s s' : Streams κ} {id : Nat} {dir : Dir} {branch : Branch}
    {point : AcceptPoint} (hstep : s.pollAccept id dir branch point = some s') :
    s'.bridge.cn.isServer = s.bridge.cn.isServer := by
  cases pollAccept_cases hstep with
  | moved => rfl
  | granted | queued | took | released => simp
  | returned => exact ConnNotify.setAcceptLock_isServer ..

theorem dropAccept_isServer {s s' : Streams κ} {id : Nat} {dir : Dir} {point : AcceptPoint}
    (hstep : s.dropAccept id dir point = some s') :
    s'.bridge.cn.isServer = s.bridge.cn.isServer := by
  unfold dropAccept at hstep
  split at hstep
  case h_4 => simp at hstep
  all_goals
    cases hstep
    simp

theorem isServer_step {T : Tquic κ} {s s' : Streams κ} {e : StreamsEvent κ}
    (hstep : s.step T e = some s') : s'.bridge.cn.isServer = s.bridge.cn.isServer := by
  cases e with
  | process =>
    obtain ⟨cmd, b, reply, hp, rfl⟩ := step_process hstep
    rw [(deliver_same { s with bridge := b } reply).cn]
    exact congrArg _ (Bridge.process_some hp).2.2.1
  | bridge e =>
    obtain ⟨b, hb, rfl⟩ := step_bridge hstep
    have hcn : ∀ t : Streams κ, (t.recordCreated e).bridge = t.bridge := by
      intro t
      unfold recordCreated
      split <;> rfl
    rw [hcn]
    obtain ⟨_, hsame | ⟨op, _, hop⟩⟩ := Bridge.step_cn hb
    · exact congrArg _ hsame
    · exact (congrArg _ hop).trans (exec_accept s.bridge.cn op [] .bi).2.2
  | accept id dir =>
    obtain ⟨_, rfl⟩ := step_accept hstep
    rfl
  | pollAccept id branch =>
    obtain ⟨f, _, hpoll⟩ := step_pollAccept hstep
    exact pollAccept_isServer hpoll
  | dropAccept id =>
    obtain ⟨f, _, hdrop⟩ := step_dropAccept hstep
    exact dropAccept_isServer hdrop
  | openStream dir =>
    cases hstep
    rfl
  | pollOpen id =>
    obtain ⟨f, _, hpoll⟩ := step_pollOpen hstep
    rw [(pollOpen_same hpoll).cn]
  | dropOpen id =>
    obtain ⟨f, _, hdrop⟩ := step_dropOpen hstep
    rw [(dropOpen_same hdrop).cn]

theorem isServer_reach {T : Tquic κ} {guard : Streams κ → StreamsEvent κ → Prop} {s t : Streams κ}
    (h : Reach (step T) guard s t) : t.bridge.cn.isServer = s.bridge.cn.isServer := by
  induction h with
  | refl => rfl
  | tail _ _ hstep ih => rw [isServer_step hstep, ih]

/-- The peer's ids of a direction, in creation order, are those delivered, then
the one in the hand of the lock's holder, then those queued, then the one the
running callback is about to queue. -/
theorem accept_in_order (T : Tquic κ) (conn : κ) (remoteAddr : SocketAddr) (isServer : Bool)
    (s : Streams κ) (hs : Reach (step T) Any (init conn remoteAddr isServer) s) (dir : Dir) :
    (∃ hand, s.InHand dir hand ∧
      (s.created.filter fun i => i % 4 == streamKind (!isServer) dir) =
        s.delivered dir ++ (hand ++ (s.bridge.cn.acceptQueue dir ++
          pendingAccepts s.bridge.todo dir))) ∧
    s.delivered dir <+: (s.created.filter fun i => i % 4 == streamKind (!isServer) dir) ∧
    ∀ i, i ∈ s.delivered dir ∨ i ∈ s.bridge.cn.acceptQueue dir →
      i % 4 = streamKind (!isServer) dir := by
  have horder := inOrder_reach hs (inOrder_init conn remoteAddr isServer)
  have hserver : s.bridge.cn.isServer = isServer := (isServer_reach hs).trans rfl
  obtain ⟨hand, hhand, hbooks⟩ := horder.ordered dir
  have hkind : (fun i => peerInitiated isServer i && streamDir i == dir) =
      fun i => i % 4 == streamKind (!isServer) dir := by
    funext i
    rw [Bool.eq_iff_iff, Bool.and_eq_true, beq_iff_eq, beq_iff_eq]
    exact peer_streamKind isServer i dir
  rw [peerCreated, hserver, hkind] at hbooks
  refine ⟨⟨hand, hhand, hbooks⟩, hbooks ▸ List.prefix_append .., ?_⟩
  intro i hi
  have hmem : i ∈ s.created.filter fun i => i % 4 == streamKind (!isServer) dir := by
    rw [hbooks]
    rcases hi with hi | hi <;> simp [hi]
  simpa using (List.mem_filter.mp hmem).2

/-- The acceptor that has the lock is dropped. The client makes two streams, and the one that
waited for the lock and a later one take them. -/
def relayRun : List (StreamsEvent Script) :=
  [.accept 0 .bi, .pollAccept 0 .recv, .pollAccept 0 .recv, .pollAccept 0 .recv, .accept 1 .bi,
    .pollAccept 1 .recv, .pollAccept 1 .recv, .pollAccept 1 .recv, .dropAccept 0,
    .bridge (.callback (.onStreamCreated 0)), .bridge .exec, .bridge .exec, .bridge .exec,
    .bridge (.callback (.onStreamCreated 4)), .bridge .exec, .bridge .exec, .bridge .exec,
    .pollAccept 1 .recv, .pollAccept 1 .recv, .pollAccept 1 .recv, .accept 2 .bi,
    .pollAccept 2 .recv, .pollAccept 2 .recv, .pollAccept 2 .recv, .pollAccept 2 .recv,
    .pollAccept 2 .recv]

theorem accept_in_order_relay :
    ∃ s, run (step Tquic.scripted) (init {} .unspecified true) relayRun = some s ∧
      s.delivered .bi = [0, 4] ∧
      s.delivered .bi <+: (s.created.filter fun i => i % 4 == streamKind false .bi) := by
  obtain ⟨s, hrun, hdelivered⟩ :
      ∃ s, run (step Tquic.scripted) (init {} .unspecified true) relayRun = some s ∧
        s.delivered .bi = [0, 4] := ⟨_, rfl, rfl⟩
  have hs := reach_any_of_run hrun
  exact ⟨s, hrun, hdelivered, (accept_in_order Tquic.scripted {} .unspecified true s hs .bi).2.1⟩

end Streams

end TokioTquic
