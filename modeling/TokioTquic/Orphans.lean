import TokioTquic.HandleSteps
import TokioTquic.StreamHalves

/-!
# Streams that nobody ends

A stream passes from the engine to the bridge thread, into the future that asked
for it, and into the handles the future returns. The handles end their halves
when they are dropped. Whatever is dropped before leaves its stream open.
-/

namespace TokioTquic
open Async
set_option autoImplicit false

universe u
variable {κ : Type u} {χ ψ : Type}

/-- A stream the engine opened for the connection `uid` at `index`. -/
structure Opened where
  index : Nat
  uid : Nat
  dir : Dir
  streamId : Nat

/-- Next to the endpoint stands what was opened and ended so far; a half is ended by
a command or by the peer's FIN. -/
structure StreamBooks (κ : Type u) (χ ψ : Type) where
  sys : Handles κ χ ψ
  opened : List Opened
  ended : List (Nat × Half)

def openedBy (index uid : Nat) : ConnCommand Respond → Option (Respond × Reply) → List Opened
  | .openBiStream _, some (_, .opened (.ok streamId)) => [⟨index, uid, .bi, streamId⟩]
  | .openUniStream _, some (_, .opened (.ok streamId)) => [⟨index, uid, .uni, streamId⟩]
  | _, _ => []

/-- The halves a command with this reply ended. -/
def endedBy : ConnCommand Respond → Option (Respond × Reply) → List Half
  | .streamWrite streamId _ true _, _ => [.send streamId]
  | .streamShutdownWrite streamId _, _ => [.send streamId]
  | .streamShutdownRead streamId _, _ => [.recv streamId]
  | .streamRead streamId _ _, some (_, .read (.ok (_, true))) => [.recv streamId]
  | _, _ => []

namespace StreamBooks

def init (isServer : Bool) : StreamBooks κ χ ψ := ⟨.init isServer, [], []⟩

def record (T : Tquic κ) (s : StreamBooks κ χ ψ) : StreamBooks κ χ ψ :=
  match s.sys.queue with
  | (_, .onConn index cmd) :: _ =>
    match s.sys.slab index with
    | some slot =>
      let reply := (processConnCommand T (some slot.conn) cmd).2
      { s with
        opened := s.opened ++ openedBy index slot.uid cmd reply
        ended := s.ended ++ (endedBy cmd reply).map fun half => (slot.uid, half) }
    | none => s
  | _ => s

def step (T : Tquic κ) (configError : χ → Option ConnectError) (s : StreamBooks κ χ ψ)
    (e : HandlesEvent κ χ ψ) : Option (StreamBooks κ χ ψ) :=
  (s.sys.step T configError e).map fun sys =>
    match e with
    | .process _ => { s.record T with sys := sys }
    | _ => { s with sys := sys }

/-- When no command is queued, each half of a stream that was opened for a connection
of the engine has a value that stands for it, or is ended. -/
def NoOrphan (s : StreamBooks κ χ ψ) : Prop :=
  s.sys.queue = [] → ∀ o ∈ s.opened, ∀ slot, s.sys.slab o.index = some slot → slot.uid = o.uid →
    ∀ half ∈ o.dir.halves o.streamId,
      (∃ id h, s.sys.values id = some h ∧ h.value.Owns o.index half) ∨ (o.uid, half) ∈ s.ended

/-- A future that holds the id of its stream is not dropped, and the engine opens no
stream for a future that has been dropped. -/
def KeepsStream (T : Tquic κ) (s : StreamBooks κ χ ψ) : HandlesEvent κ χ ψ → Prop
  | .use id .drop => ∀ h self streamId, s.sys.values id = some h → h.value = .openStream self →
      self.rx ≠ some (some (.ok streamId))
  | .process _ => ∀ origin index cmd queue slot id n streamId,
      s.sys.queue = (origin, .onConn index cmd) :: queue → s.sys.slab index = some slot →
      (processConnCommand T (some slot.conn) cmd).2 = some ((id, n), .opened (.ok streamId)) →
      s.sys.values id ≠ none
  | _ => True

/-! ## The invariant -/

structure Kept (s : StreamBooks κ χ ψ) : Prop where
  named : s.sys.Named
  fits : ∀ origin index cmd, (origin, .onConn index cmd) ∈ s.sys.queue → s.sys.Fits index cmd
  openers : s.sys.openers.Nodup
  slots : ∀ index slot, s.sys.slab index = some slot → slot.uid < s.sys.nextConn
  known : ∀ o ∈ s.opened, o.uid < s.sys.nextConn
  held : ∀ o ∈ s.opened, ∀ slot, s.sys.slab o.index = some slot → slot.uid = o.uid →
    ∀ half ∈ o.dir.halves o.streamId, s.sys.Holds o.index half ∨ (o.uid, half) ∈ s.ended

theorem Kept.noOrphan {s : StreamBooks κ χ ψ} (hs : s.Kept) : s.NoOrphan := by
  intro hqueue o ho slot hslot huid half hhalf
  rcases hs.held o ho slot hslot huid half hhalf with hholds | hended
  · rcases hholds with ⟨id, h, hh, howns, _⟩ | ⟨origin, cmd, hcmd, _⟩
    · exact Or.inl ⟨id, h, hh, howns⟩
    · rw [hqueue] at hcmd
      cases hcmd
  · exact Or.inr hended

end StreamBooks

namespace Handles

theorem step_slab {T : Tquic κ} {configError : χ → Option ConnectError} {s t : Handles κ χ ψ}
    {e : HandlesEvent κ χ ψ} (hstep : s.step T configError e = some t) :
    s.nextConn ≤ t.nextConn ∧ ∀ index slot', t.slab index = some slot' →
      (∃ slot, s.slab index = some slot ∧ slot.uid = slot'.uid) ∨
        (slot'.uid = s.nextConn ∧ s.nextConn < t.nextConn) := by
  have hnarrows : ∀ {s t : Handles κ χ ψ}, Narrows s t → t.nextConn = s.nextConn ∧
      ∀ index slot', t.slab index = some slot' →
        ∃ slot, s.slab index = some slot ∧ slot.uid = slot'.uid := by
    intro s t h
    refine ⟨h.nextConn, fun index slot' hslot' => ?_⟩
    obtain ⟨slot, hslot, huid, _⟩ := h.slab index slot' hslot'
    exact ⟨slot, hslot, huid⟩
  rcases step_cases hstep with h | ⟨s₁, new, h, ⟨isServer, t₁, x, hcreate, rfl, _⟩, _⟩ |
    ⟨index, info, hrun⟩
  · obtain ⟨hnext, hslab⟩ := hnarrows h
    exact ⟨Nat.le_of_eq hnext.symm, fun index slot' hslot' => Or.inl (hslab index slot' hslot')⟩
  · obtain ⟨hnext, hslab⟩ := hnarrows h
    obtain ⟨hslab', hnext', _⟩ := t₁.deliver_frame (some s₁.nextConn) x
    rw [hslab', hnext']
    unfold create at hcreate
    split at hcreate <;> cases hcreate
    refine ⟨by simp only; omega, fun index slot' hslot' => ?_⟩
    by_cases hi : index = new.index
    · subst hi
      simp only [Function.update_self, Option.some.injEq] at hslot'
      subst hslot'
      exact Or.inr ⟨hnext, by simp only; omega⟩
    · simp only [Function.update_of_ne hi] at hslot'
      exact Or.inl (hslab index slot' hslot')
  · obtain ⟨slot, hslot, _, rfl⟩ := runCallback_closed hrun
    refine ⟨Nat.le_refl _, fun i slot' hslot' => Or.inl ?_⟩
    by_cases hi : i = index
    · subst hi
      simp only [Function.update_self, Option.some.injEq] at hslot'
      subst hslot'
      exact ⟨slot, hslot, rfl⟩
    · simp only [Function.update_of_ne hi] at hslot'
      exact ⟨slot', hslot', rfl⟩

theorem Fits.keep {s t : Handles κ χ ψ} {index : Nat} {cmd : ConnCommand Respond}
    (h : s.Fits index cmd) (hnext : s.next ≤ t.next)
    (hvalues : ∀ i h', i < s.next → t.values i = some h' →
      ∃ h, s.values i = some h ∧ h.value.Later s.next h'.value) : t.Fits index cmd := by
  have hopens : ∀ dir id, s.Opens index dir id → t.Opens index dir id := by
    rintro dir id ⟨hid, hopen⟩
    refine ⟨Nat.lt_of_lt_of_le hid hnext, fun h' hh' => ?_⟩
    obtain ⟨h, hh, hlater⟩ := hvalues id h' hid hh'
    rw [hopen h hh] at hlater
    generalize h'.value = v' at hlater
    cases hlater
    rfl
  cases cmd with
  | openBiStream respond => exact hopens .bi respond.1 h
  | openUniStream respond => exact hopens .uni respond.1 h
  | streamRead streamId maxLen respond =>
    obtain ⟨hid, hn, hread⟩ := h
    refine ⟨Nat.lt_of_lt_of_le hid hnext, Nat.lt_of_lt_of_le hn hnext, fun h' self hh' hself => ?_⟩
    obtain ⟨h, hh, hlater⟩ := hvalues respond.1 h' hid hh'
    rw [hself] at hlater
    generalize hv : h.value = v at hlater
    cases hlater with
    | same => exact hread h self hh hv
    | received _ _ hnew => exact absurd (hnew _ rfl) (Nat.ne_of_lt hn)
  | _ => trivial

theorem opens_of_mem {s : Handles κ χ ψ} {id : Nat} (hid : id ∈ s.openers)
    (hfits : ∀ origin index cmd, (origin, .onConn index cmd) ∈ s.queue → s.Fits index cmd) :
    ∃ index dir, s.Opens index dir id := by
  obtain ⟨⟨origin, cmd⟩, hcmd, hopener⟩ := List.mem_filterMap.mp hid
  cases cmd with
  | onConn index cmd =>
    have hfit := hfits origin index cmd hcmd
    cases cmd with
    | openBiStream respond =>
      cases hopener
      exact ⟨index, .bi, hfit⟩
    | openUniStream respond =>
      cases hopener
      exact ⟨index, .uni, hfit⟩
    | _ => cases hopener
  | _ => cases hopener

theorem openers_send {s t : Handles κ χ ψ} {origin : Option Nat} {cmd : BridgeCommand χ ψ Respond}
    (hqueue : t.queue = s.queue ++ [(origin, cmd)]) :
    t.openers = s.openers ++ (opener cmd).toList := by
  rw [openers, hqueue, List.filterMap_append]
  cases ho : opener cmd <;> simp [ho, openers]

theorem mem_send {s t : Handles κ χ ψ} {origin origin' : Option Nat}
    {cmd cmd' : BridgeCommand χ ψ Respond} (hqueue : t.queue = s.queue ++ [(origin', cmd')])
    (hcmd : (origin, cmd) ∈ t.queue) : (origin, cmd) ∈ s.queue ∨ cmd = cmd' := by
  rw [hqueue] at hcmd
  rcases List.mem_append.mp hcmd with hold | hnew
  · exact Or.inl hold
  · exact Or.inr (Prod.mk.inj (List.mem_singleton.mp hnew)).2

end Handles

namespace StreamBooks

theorem Kept.slots_step {T : Tquic κ} {configError : χ → Option ConnectError}
    {s : StreamBooks κ χ ψ} {t : Handles κ χ ψ} {e : HandlesEvent κ χ ψ} (hs : s.Kept)
    (hstep : s.sys.step T configError e = some t) {index : Nat} {slot' : Slot κ}
    (hslot' : t.slab index = some slot') : slot'.uid < t.nextConn := by
  obtain ⟨hconn, hslab⟩ := Handles.step_slab hstep
  rcases hslab index slot' hslot' with ⟨slot, hslot, huid⟩ | ⟨huid, hlt⟩
  · rw [← huid]
    exact Nat.lt_of_lt_of_le (hs.slots index slot hslot) hconn
  · rw [huid]
    exact hlt

theorem Kept.slot_before {T : Tquic κ} {configError : χ → Option ConnectError}
    {s : StreamBooks κ χ ψ} {t : Handles κ χ ψ} {e : HandlesEvent κ χ ψ} (hs : s.Kept)
    (hstep : s.sys.step T configError e = some t) {o : Opened} (ho : o ∈ s.opened)
    {slot' : Slot κ} (hslot' : t.slab o.index = some slot') (huid : slot'.uid = o.uid) :
    ∃ slot, s.sys.slab o.index = some slot ∧ slot.uid = o.uid := by
  rcases (Handles.step_slab hstep).2 o.index slot' hslot' with ⟨slot, hslot, huid'⟩ | ⟨hcreated, _⟩
  · exact ⟨slot, hslot, huid'.trans huid⟩
  · have hlt := hs.known o ho
    rw [← huid, hcreated] at hlt
    exact absurd hlt (Nat.lt_irrefl _)

theorem Kept.move {T : Tquic κ} {configError : χ → Option ConnectError} {s : StreamBooks κ χ ψ}
    {t : Handles κ χ ψ} {e : HandlesEvent κ χ ψ} (hs : s.Kept)
    (hstep : s.sys.step T configError e = some t) (hnext : s.sys.next ≤ t.next)
    (hvalues : ∀ i h', i < s.sys.next → t.values i = some h' →
      ∃ h, s.sys.values i = some h ∧ h.value.Later s.sys.next h'.value)
    (hqueue : ∀ origin index cmd, (origin, .onConn index cmd) ∈ t.queue →
      (origin, .onConn index cmd) ∈ s.sys.queue ∨ t.Fits index cmd)
    (hopeners : t.openers.Nodup)
    (hholds : ∀ index half, s.sys.Holds index half → t.Holds index half) :
    Kept { s with sys := t } := by
  have hconn := (Handles.step_slab hstep).1
  refine ⟨Handles.named_step hs.named hstep, fun origin index cmd hcmd => ?_, hopeners,
    fun index slot' hslot' => hs.slots_step hstep hslot',
    fun o ho => Nat.lt_of_lt_of_le (hs.known o ho) hconn,
    fun o ho slot' hslot' huid half hhalf => ?_⟩
  · rcases hqueue origin index cmd hcmd with hold | hnew
    · exact (hs.fits origin index cmd hold).keep hnext hvalues
    · exact hnew
  · obtain ⟨slot, hslot, huid'⟩ := hs.slot_before hstep ho hslot' huid
    rcases hs.held o ho slot hslot huid' half hhalf with hold | hended
    · exact Or.inl (hholds _ _ hold)
    · exact Or.inr hended

theorem kept_use {T : Tquic κ} {configError : χ → Option ConnectError} {s : StreamBooks κ χ ψ}
    {t : Handles κ χ ψ} {id : Nat} {op : Op} (hs : s.Kept) (hguard : s.KeepsStream T (.use id op))
    (hstep : s.sys.step T configError (.use id op) = some t) : Kept { s with sys := t } := by
  have huse := hstep
  simp only [Handles.step] at huse
  split at huse
  · rename_i h hh
    have hid := hs.named id h hh
    have htouches := Handles.useValue_touches hh huse
    have hused := Handles.useValue_used hid hh (fun hop self streamId hself => by
      subst hop
      exact hguard h self streamId hh hself) huse
    obtain ⟨more, hmore⟩ := htouches.queue
    refine hs.move hstep htouches.next ?_ ?_ ?_ ?_
    · intro i h' hi hh'
      by_cases hself : i = id
      · subst hself
        exact ⟨h, hh, hused.later h' hh'⟩
      · exact ⟨h', (htouches.others i hself hi).symm.trans hh', .same _⟩
    · intro origin index cmd hcmd
      rcases hused.queue with hsame | ⟨origin', cmd', hsent, hfits, _⟩
      · exact Or.inl (hsame ▸ hcmd)
      · rcases Handles.mem_send hsent hcmd with hold | rfl
        · exact Or.inl hold
        · exact Or.inr (hfits index cmd rfl)
    · rcases hused.queue with hsame | ⟨origin', cmd', hsent, _, hopener⟩
      · rw [Handles.openers, hsame]
        exact hs.openers
      · rw [Handles.openers_send hsent]
        cases ho : Handles.opener cmd' with
        | none =>
          rw [Option.toList_none, List.append_nil]
          exact hs.openers
        | some i =>
          obtain ⟨rfl, dir, connId, hv⟩ := hopener i ho
          refine List.nodup_append.mpr ⟨hs.openers, by simp, ?_⟩
          rintro a ha b hb rfl
          obtain rfl := List.mem_singleton.mp hb
          obtain ⟨index, dir', _, hopens⟩ := Handles.opens_of_mem ha hs.fits
          have hwaits := hopens h hh
          rw [hv] at hwaits
          cases hwaits
    · intro index half hholds
      rcases hholds with ⟨i, g, hg, howns, hend⟩ | ⟨origin, cmd, hcmd, hends⟩
      · by_cases hself : i = id
        · subst hself
          rw [hh] at hg
          cases hg
          exact hused.holds index half howns hend
        · exact Handles.holds_value
            ((htouches.others i hself (hs.named i g hg)).trans hg) howns hend
      · exact Handles.holds_command (hmore ▸ List.mem_append_left _ hcmd) hends
  · cases huse

theorem Kept.frame {T : Tquic κ} {configError : χ → Option ConnectError} {s : StreamBooks κ χ ψ}
    {t : Handles κ χ ψ} {e : HandlesEvent κ χ ψ} (hs : s.Kept)
    (hstep : s.sys.step T configError e = some t) (hnext : s.sys.next ≤ t.next)
    (hvalues : ∀ i, i < s.sys.next → t.values i = s.sys.values i)
    (hqueue : t.queue = s.sys.queue ∨ ∃ cmd, t.queue = s.sys.queue ++ [(none, cmd)] ∧
      ∀ index c, cmd ≠ .onConn index c) : Kept { s with sys := t } := by
  refine hs.move hstep hnext ?_ ?_ ?_ ?_
  · intro i h' hi hh'
    exact ⟨h', (hvalues i hi).symm.trans hh', .same _⟩
  · intro origin index cmd hcmd
    rcases hqueue with hsame | ⟨cmd', hsent, hother⟩
    · exact Or.inl (hsame ▸ hcmd)
    · rcases Handles.mem_send hsent hcmd with hold | rfl
      · exact Or.inl hold
      · exact absurd rfl (hother index cmd)
  · rcases hqueue with hsame | ⟨cmd', hsent, hother⟩
    · rw [Handles.openers, hsame]
      exact hs.openers
    · have hopener : Handles.opener cmd' = none := by
        cases cmd' with
        | onConn index c => exact absurd rfl (hother index c)
        | _ => rfl
      rw [Handles.openers_send hsent, hopener, Option.toList_none, List.append_nil]
      exact hs.openers
  · intro index half hholds
    rcases hholds with ⟨i, g, hg, howns, hend⟩ | ⟨origin, cmd, hcmd, hends⟩
    · exact Handles.holds_value ((hvalues i (hs.named i g hg)).trans hg) howns hend
    · refine Or.inr ⟨origin, cmd, ?_, hends⟩
      rcases hqueue with hsame | ⟨cmd', hsent, _⟩
      · rw [hsame]
        exact hcmd
      · rw [hsent]
        exact List.mem_append_left _ hcmd

end StreamBooks

/-! ## Processing a command -/

theorem reply_opened {T : Tquic κ} {conn : Option κ} {cmd : ConnCommand Respond}
    {respond : Respond} {r : Except ConnectionError Nat}
    (h : (processConnCommand T conn cmd).2 = some (respond, .opened r)) :
    cmd = .openBiStream respond ∨ cmd = .openUniStream respond := by
  cases cmd <;> simp [processConnCommand] at h <;> simp [h]

theorem reply_read {T : Tquic κ} {conn : Option κ} {cmd : ConnCommand Respond}
    {respond : Respond} {r : Except ReadError (Bytes × Bool)}
    (h : (processConnCommand T conn cmd).2 = some (respond, .read r)) :
    ∃ streamId maxLen, cmd = .streamRead streamId maxLen respond := by
  cases cmd <;> simp [processConnCommand] at h
  simp [h]

theorem deliver_value (h : Handle) (uid : Option Nat) (n : Nat) (reply : Reply) :
    (h.deliver uid n reply).value = h.value ∨
    (∃ self self', h.value = .connecting self ∧
      (h.deliver uid n reply).value = .connecting self') ∨
    (∃ dir connId r, reply = .opened r ∧ h.value = .openStream ⟨dir, connId, some none⟩ ∧
      (h.deliver uid n reply).value = .openStream ⟨dir, connId, some (some r)⟩) ∨
    ∃ self r, reply = .read r ∧ h.value = .recvStream self (some (n, none)) ∧
      (h.deliver uid n reply).value = .recvStream self (some (n, some r)) := by
  unfold Handle.deliver
  split
  · rename_i heq
    exact Or.inr (Or.inl ⟨_, _, heq, rfl⟩)
  · rename_i dir connId r heq
    exact Or.inr (Or.inr (Or.inl ⟨dir, connId, r, rfl, heq, rfl⟩))
  · rename_i self m r heq
    split
    · rename_i hm
      subst hm
      exact Or.inr (Or.inr (Or.inr ⟨self, r, rfl, heq, rfl⟩))
    · exact Or.inl rfl
  · exact Or.inl rfl

namespace Handles

theorem Fits.deliver {s u : Handles κ χ ψ} {index : Nat} {cmd : ConnCommand Respond}
    (h : s.Fits index cmd) (hvalues : u.values = s.values) (hnext : u.next = s.next)
    {uid : Option Nat} {x : Option (Respond × Reply)}
    (hx : ∀ id n r, x = some ((id, n), .opened r) →
      opener (.onConn index cmd : BridgeCommand χ ψ Respond) ≠ some id) :
    (u.deliver uid x).Fits index cmd := by
  have hopens : ∀ dir id, opener (.onConn index cmd : BridgeCommand χ ψ Respond) = some id →
      s.Opens index dir id → (u.deliver uid x).Opens index dir id := by
    rintro dir id hid ⟨hlt, hopen⟩
    obtain ⟨hnext', hvalue⟩ := u.deliver_values uid x id
    refine ⟨by rw [hnext', hnext]; exact hlt, fun h' hh' => ?_⟩
    rcases hvalue with hsame | ⟨n, reply, g, rfl, hg, hdelivered⟩
    · rw [hsame, hvalues] at hh'
      exact hopen h' hh'
    · rw [hdelivered] at hh'
      obtain rfl := Option.some.inj hh'
      have hwaits := hopen g (hvalues ▸ hg)
      rcases deliver_value g uid n reply with hkept | ⟨_, _, hv, _⟩ | ⟨_, _, r, rfl, _⟩ |
        ⟨_, _, _, hv, _⟩
      · exact hkept.trans hwaits
      · rw [hwaits] at hv
        cases hv
      · exact absurd hid (hx id n r rfl)
      · rw [hwaits] at hv
        cases hv
  cases cmd with
  | openBiStream respond => exact hopens .bi respond.1 rfl h
  | openUniStream respond => exact hopens .uni respond.1 rfl h
  | streamRead streamId maxLen respond =>
    obtain ⟨hid, hn, hread⟩ := h
    obtain ⟨hnext', hvalue⟩ := u.deliver_values uid x respond.1
    rw [← hnext, ← hnext'] at hid hn
    refine ⟨hid, hn, fun h' self hh' hself => ?_⟩
    rcases hvalue with hsame | ⟨n, reply, g, rfl, hg, hdelivered⟩
    · rw [hsame, hvalues] at hh'
      exact hread h' self hh' hself
    · rw [hdelivered] at hh'
      obtain rfl := Option.some.inj hh'
      rcases deliver_value g uid n reply with hkept | ⟨_, _, _, hv⟩ | ⟨_, _, _, _, _, hv⟩ |
        ⟨_, _, _, _, hv⟩
      · exact hread g self (hvalues ▸ hg) (hkept.symm.trans hself)
      · rw [hself] at hv
        cases hv
      · rw [hself] at hv
        cases hv
      · rw [hself] at hv
        cases hv
  | _ => trivial

theorem holds_deliver {u : Handles κ χ ψ} {uid : Option Nat} {x : Option (Respond × Reply)}
    {id : Nat} {h : Handle} {index : Nat} {half : Half} (hh : u.values id = some h)
    (howns : h.value.Owns index half) (hend : ¬ h.value.AtEnd) :
    (u.deliver uid x).Holds index half ∨ ∃ n data self,
      x = some ((id, n), .read (.ok (data, true))) ∧ self.connId = index ∧
        h.value = .recvStream self (some (n, none)) ∧ half = .recv self.streamId := by
  obtain ⟨_, hsame | ⟨n, reply, g, rfl, hg, hdelivered⟩⟩ := u.deliver_values uid x id
  · exact Or.inl (holds_value (hsame.trans hh) howns hend)
  · obtain rfl : h = g := Option.some.inj (hh.symm.trans hg)
    rcases deliver_value h uid n reply with hkept | ⟨_, _, hv, _⟩ | ⟨_, _, _, _, hv, _⟩ |
      ⟨self, r, rfl, hv, hnew⟩
    · exact Or.inl (holds_value hdelivered (hkept ▸ howns) (hkept ▸ hend))
    · rw [hv] at howns
      exact howns.elim
    · rw [hv] at howns
      obtain ⟨_, streamId, hrx, _⟩ := howns
      cases hrx
    · rw [hv] at howns
      by_cases hfin : ∃ data, r = .ok (data, true)
      · obtain ⟨data, rfl⟩ := hfin
        exact Or.inr ⟨n, data, self, rfl, howns.1, hv, howns.2.2⟩
      · left
        refine holds_value hdelivered (hnew ▸ howns) (hnew ▸ fun hatEnd => ?_)
        rcases r with e | ⟨data, _ | _⟩
        · exact hatEnd
        · exact hatEnd
        · exact hfin ⟨data, rfl⟩

end Handles

namespace StreamBooks

theorem Kept.answer {T : Tquic κ} {configError : χ → Option ConnectError} {s : StreamBooks κ χ ψ}
    {u : Handles κ χ ψ} {e : HandlesEvent κ χ ψ} {origin uid : Option Nat}
    {cmd : BridgeCommand χ ψ Respond} {x : Option (Respond × Reply)} (hs : s.Kept)
    (opened : List Opened) (ended : List (Nat × Half))
    (hstep : s.sys.step T configError e = some (u.deliver uid x))
    (hqueue : s.sys.queue = (origin, cmd) :: u.queue) (hvalues : u.values = s.sys.values)
    (hnext : u.next = s.sys.next)
    (hopener : ∀ id n r, x = some ((id, n), .opened r) → Handles.opener cmd = some id)
    (hends : ∀ index c slot half, cmd = .onConn index c → s.sys.slab index = some slot →
      c.Ends half → (slot.uid, half) ∈ ended)
    (hfin : ∀ id n data, x = some ((id, n), .read (.ok (data, true))) →
      ∃ index streamId maxLen, cmd = .onConn index (.streamRead streamId maxLen (id, n)) ∧
        ∀ slot, s.sys.slab index = some slot → (slot.uid, .recv streamId) ∈ ended)
    (hnew : ∀ o ∈ opened, o.uid < s.sys.nextConn ∧ ∀ half ∈ o.dir.halves o.streamId,
      (u.deliver uid x).Holds o.index half) :
    Kept ⟨u.deliver uid x, s.opened ++ opened, s.ended ++ ended⟩ := by
  have hconn := (Handles.step_slab hstep).1
  obtain ⟨_, _, _, hqueue'⟩ := u.deliver_frame uid x
  have hopeners : s.sys.openers = (Handles.opener cmd).toList ++ u.openers := by
    simp only [Handles.openers, hqueue, List.filterMap_cons]
    cases Handles.opener cmd <;> rfl
  have hnodup := hs.openers
  rw [hopeners] at hnodup
  refine ⟨Handles.named_step hs.named hstep, fun origin' index c hc => ?_, ?_,
    fun index slot' hslot' => hs.slots_step hstep hslot', fun o ho => ?_,
    fun o ho slot' hslot' huid half hhalf => ?_⟩
  · have hc' : (origin', .onConn index c) ∈ u.queue := hqueue' ▸ hc
    have hfit := hs.fits origin' index c (by rw [hqueue]; exact List.mem_cons_of_mem _ hc')
    refine hfit.deliver hvalues hnext fun id n r hx hid => ?_
    -- the queued command would be a second one of the same future
    have hin : id ∈ u.openers := List.mem_filterMap.mpr ⟨_, hc', hid⟩
    rw [hopener id n r hx] at hnodup
    exact (List.nodup_cons.mp hnodup).1 hin
  · rw [show (u.deliver uid x).openers = u.openers from congrArg (List.filterMap _) hqueue']
    exact (List.nodup_append.mp hnodup).2.1
  · rcases List.mem_append.mp ho with hold | hnew'
    · exact Nat.lt_of_lt_of_le (hs.known o hold) hconn
    · exact Nat.lt_of_lt_of_le (hnew o hnew').1 hconn
  · rcases List.mem_append.mp ho with hold | hnew'
    · obtain ⟨slot, hslot, huid'⟩ := hs.slot_before hstep hold hslot' huid
      rcases hs.held o hold slot hslot huid' half hhalf with
        (⟨id, h, hh, howns, hend⟩ | ⟨origin', c, hc, hcends⟩) | hended
      · rcases Handles.holds_deliver (x := x) (hvalues ▸ hh) howns hend with hkept |
          ⟨n, data, self, hx, hconnId, hv, rfl⟩
        · exact Or.inl hkept
        · right
          obtain ⟨index, streamId, maxLen, rfl, hrecorded⟩ := hfin id n data hx
          obtain ⟨_, _, hread⟩ := hs.fits origin index _ (by rw [hqueue]; exact .head _)
          obtain ⟨hindex, rfl⟩ := hread h self hh hv
          obtain rfl := hindex.symm.trans hconnId
          exact List.mem_append_right _ (huid' ▸ hrecorded slot hslot)
      · rw [hqueue] at hc
        rcases List.mem_cons.mp hc with hhead | htail
        · right
          exact List.mem_append_right _
            (huid' ▸ hends o.index c slot half (Prod.mk.inj hhead).2.symm hslot hcends)
        · exact Or.inl (Handles.holds_command (hqueue' ▸ htail) hcends)
      · exact Or.inr (List.mem_append_left _ hended)
    · exact Or.inl ((hnew o hnew').2 half hhalf)

theorem record_other {T : Tquic κ} {s : StreamBooks κ χ ψ} {origin : Option Nat}
    {cmd : BridgeCommand χ ψ Respond} {queue : List (Option Nat × BridgeCommand χ ψ Respond)}
    (hqueue : s.sys.queue = (origin, cmd) :: queue) (hcmd : ∀ index c, cmd ≠ .onConn index c) :
    s.record T = s := by
  unfold record
  split
  · rename_i index c _ heq
    rw [hqueue] at heq
    exact absurd (Prod.mk.inj (List.cons.inj heq).1).2 (hcmd index c)
  · rfl

theorem Kept.other {T : Tquic κ} {configError : χ → Option ConnectError} {s : StreamBooks κ χ ψ}
    {u : Handles κ χ ψ} {e : HandlesEvent κ χ ψ} {origin uid : Option Nat}
    {cmd : BridgeCommand χ ψ Respond} {x : Option (Respond × Reply)} (hs : s.Kept)
    (hcmd : ∀ index c, cmd ≠ .onConn index c)
    (hstep : s.sys.step T configError e = some (u.deliver uid x))
    (hqueue : s.sys.queue = (origin, cmd) :: u.queue) (hvalues : u.values = s.sys.values)
    (hnext : u.next = s.sys.next)
    (hx : ∀ respond reply, x = some (respond, reply) → ∃ r, reply = .connected r) :
    Kept { s.record T with sys := u.deliver uid x } := by
  have hkept := hs.answer [] [] hstep hqueue hvalues hnext
    (fun id n r h => by
      obtain ⟨_, hr⟩ := hx _ _ h
      cases hr)
    (fun index c _ _ h => absurd h (hcmd index c))
    (fun id n data h => by
      obtain ⟨_, hr⟩ := hx _ _ h
      cases hr)
    (fun _ ho => nomatch ho)
  rw [record_other hqueue hcmd]
  simpa using hkept

/-- The ended halves of a command are those its kind ends, and the one whose FIN it read. -/
theorem mem_endedBy {cmd : ConnCommand Respond} {reply : Option (Respond × Reply)} {half : Half}
    (h : cmd.Ends half) : half ∈ endedBy cmd reply := by
  cases cmd with
  | streamWrite streamId data fin respond =>
    obtain ⟨rfl, rfl⟩ := h
    exact .head _
  | streamShutdownWrite streamId code =>
    obtain rfl := h
    exact .head _
  | streamShutdownRead streamId code =>
    obtain rfl := h
    exact .head _
  | _ => exact h.elim

theorem kept_onConn {T : Tquic κ} {configError : χ → Option ConnectError} {s : StreamBooks κ χ ψ}
    {t : Handles κ χ ψ} {answer : Except TquicError (NewConn κ)} {origin : Option Nat}
    {index : Nat} {cmd : ConnCommand Respond}
    {queue : List (Option Nat × BridgeCommand χ ψ Respond)} (hs : s.Kept)
    (hguard : s.KeepsStream T (.process answer))
    (hqueue : s.sys.queue = (origin, .onConn index cmd) :: queue)
    (hstep : s.sys.step T configError (.process answer) = some t)
    (ht : t = { s.sys with queue := queue }.processOnConn T index cmd) :
    Kept { s.record T with sys := t } := by
  have hopener : ∀ conn id n r, (processConnCommand T conn cmd).2 = some ((id, n), .opened r) →
      Handles.opener (.onConn index cmd : BridgeCommand χ ψ Respond) = some id := by
    intro conn id n r h
    rcases reply_opened h with rfl | rfl <;> rfl
  cases hslot : s.sys.slab index with
  | none =>
    have hrecord : s.record T = s := by simp [record, hqueue, hslot]
    have hsys : t = { s.sys with queue := queue }.deliver none (processConnCommand T none cmd).2 := by
      rw [ht]
      simp [Handles.processOnConn, hslot]
    subst hsys
    have hkept := hs.answer [] [] hstep hqueue rfl rfl (hopener none)
      (fun i c slot half heq hslot' _ => by
        cases heq
        rw [hslot] at hslot'
        cases hslot')
      (fun id n data h => by
        obtain ⟨streamId, maxLen, rfl⟩ := reply_read h
        exact ⟨index, streamId, maxLen, rfl, fun slot hslot' => by
          rw [hslot] at hslot'
          cases hslot'⟩)
      (fun _ ho => nomatch ho)
    rw [hrecord]
    simpa using hkept
  | some slot =>
    obtain ⟨conn, hconn⟩ := processConnCommand_some T slot.conn cmd
    have hrecord : s.record T = { s with
        opened := s.opened ++ openedBy index slot.uid cmd (processConnCommand T (some slot.conn) cmd).2
        ended := s.ended ++ (endedBy cmd (processConnCommand T (some slot.conn) cmd).2).map
          fun half => (slot.uid, half) } := by simp [record, hqueue, hslot]
    have hsys : t = Handles.deliver { s.sys with
        queue := queue
        slab := Function.update s.sys.slab index (some { slot with conn := conn }) } none
          (processConnCommand T (some slot.conn) cmd).2 := by
      rw [ht]
      simp [Handles.processOnConn, hslot, hconn]
    subst hsys
    rw [hrecord]
    refine hs.answer _ _ hstep hqueue rfl rfl (hopener _) ?_ ?_ ?_
    · intro i c slot' half heq hslot' hends
      cases heq
      obtain rfl := Option.some.inj (hslot.symm.trans hslot')
      exact List.mem_map.mpr ⟨half, mem_endedBy hends, rfl⟩
    · intro id n data h
      obtain ⟨streamId, maxLen, rfl⟩ := reply_read h
      refine ⟨index, streamId, maxLen, rfl, fun slot' hslot' => ?_⟩
      obtain rfl := Option.some.inj (hslot.symm.trans hslot')
      rw [h]
      exact List.mem_map.mpr ⟨_, .head _, rfl⟩
    · intro o ho
      obtain ⟨id, n, streamId, dir, hreply, hopens, rfl⟩ : ∃ id n streamId dir,
          (processConnCommand T (some slot.conn) cmd).2 =
            some ((id, n), .opened (.ok streamId)) ∧
          (s.sys.Fits index cmd → s.sys.Opens index dir id) ∧
          o = ⟨index, slot.uid, dir, streamId⟩ := by
        unfold openedBy at ho
        split at ho
        · rename_i respond respond' streamId heq
          rcases reply_opened heq with h | h <;> cases h
          exact ⟨_, _, streamId, .bi, heq, fun h => h, List.mem_singleton.mp ho⟩
        · rename_i respond respond' streamId heq
          rcases reply_opened heq with h | h <;> cases h
          exact ⟨_, _, streamId, .uni, heq, fun h => h, List.mem_singleton.mp ho⟩
        · cases ho
      refine ⟨hs.slots index slot hslot, fun half hhalf => ?_⟩
      have hfit := hs.fits origin index cmd (by rw [hqueue]; exact .head _)
      obtain ⟨h, hh⟩ := Option.ne_none_iff_exists'.mp
        (hguard origin index cmd queue slot id n streamId hqueue hslot hreply)
      have hwaits := (hopens hfit).2 h hh
      obtain ⟨o', v⟩ := h
      obtain rfl : v = .openStream ⟨dir, index, some none⟩ := hwaits
      refine Or.inl ⟨id, ⟨o', .openStream ⟨dir, index, some (some (.ok streamId))⟩⟩, ?_,
        ⟨rfl, streamId, rfl, hhalf⟩, fun h => h⟩
      simp [Handles.deliver, hreply, hh, Handle.deliver]

theorem kept_process {T : Tquic κ} {configError : χ → Option ConnectError}
    {s : StreamBooks κ χ ψ} {t : Handles κ χ ψ} {answer : Except TquicError (NewConn κ)}
    (hs : s.Kept) (hguard : s.KeepsStream T (.process answer))
    (hstep : s.sys.step T configError (.process answer) = some t) :
    Kept { s.record T with sys := t } := by
  have hprocess := hstep
  simp only [Handles.step, Handles.process] at hprocess
  split at hprocess
  · cases hprocess
  · rename_i origin cmd queue hqueue
    have hquiet : ∀ u : Handles κ χ ψ, (∀ index c, cmd ≠ .onConn index c) → t = u →
        u.queue = queue → u.values = s.sys.values → u.next = s.sys.next →
        Kept { s.record T with sys := t } := by
      rintro u hcmd rfl hrest hvalues hnext
      have hdeliver : s.sys.step T configError (.process answer) = some (t.deliver none none) :=
        hstep
      exact hs.other hcmd hdeliver (hrest ▸ hqueue) hvalues hnext (by intro _ _ h; cases h)
    cases cmd with
    | connect addr serverName clientConfig respond =>
      simp only [Handles.processCommand] at hprocess
      split at hprocess
      · obtain ⟨u, hu, rfl⟩ := Option.map_eq_some_iff.mp hprocess
        unfold Handles.create at hu
        split at hu <;> cases hu
        refine hs.other (by intro _ _ h; cases h) hstep hqueue rfl rfl ?_
        intro respond' reply h
        cases h
        exact ⟨_, rfl⟩
      · cases hprocess
        refine hs.other (u := { s.sys with queue := queue }) (by intro _ _ h; cases h) hstep hqueue
          rfl rfl ?_
        intro respond' reply h
        cases h
        exact ⟨_, rfl⟩
    | onConn index cmd =>
      exact kept_onConn hs hguard hqueue hstep (Option.some.inj hprocess).symm
    | setServerConfig config =>
      exact hquiet _ (by intro _ _ h; cases h) (Option.some.inj hprocess).symm rfl rfl rfl
    | setDefaultClientConfig config =>
      exact hquiet _ (by intro _ _ h; cases h) (Option.some.inj hprocess).symm rfl rfl rfl
    | closeEndpoint code reason =>
      exact hquiet _ (by intro _ _ h; cases h) (Option.some.inj hprocess).symm rfl rfl rfl
    | acceptIncoming =>
      exact hquiet _ (by intro _ _ h; cases h) (Option.some.inj hprocess).symm rfl rfl rfl

theorem step_sys {T : Tquic κ} {configError : χ → Option ConnectError} {s s' : StreamBooks κ χ ψ}
    {e : HandlesEvent κ χ ψ} (hstep : s.step T configError e = some s') :
    s.sys.step T configError e = some s'.sys := by
  obtain ⟨t, ht, rfl⟩ := Option.map_eq_some_iff.mp hstep
  rw [ht]
  cases e <;> rfl

theorem kept_step {T : Tquic κ} {configError : χ → Option ConnectError} {s s' : StreamBooks κ χ ψ}
    {e : HandlesEvent κ χ ψ} (hs : s.Kept) (hguard : s.KeepsStream T e)
    (hstep : s.step T configError e = some s') : s'.Kept := by
  obtain ⟨t, ht, rfl⟩ := Option.map_eq_some_iff.mp hstep
  cases Handles.step_inv ht with
  | process => exact kept_process hs hguard ht
  | use => exact kept_use hs hguard ht
  | connCreated hcreate =>
    unfold Handles.create at hcreate
    split at hcreate <;> cases hcreate
    exact hs.frame ht (Nat.le_refl _) (fun _ _ => rfl) (Or.inl rfl)
  | callback | closed | engine | release | refused =>
    exact hs.frame ht (Nat.le_refl _) (fun _ _ => rfl) (Or.inl rfl)
  | connect =>
    exact hs.frame ht (Nat.le_succ _) (fun i hi => Handles.add_values_lt hi _)
      (Or.inr ⟨_, rfl, by intro _ _ h; cases h⟩)
  | setDefaultClientConfig | setServerConfig | closeEndpoint =>
    exact hs.frame ht (Nat.le_refl _) (fun _ _ => rfl)
      (Or.inr ⟨_, rfl, by intro _ _ h; cases h⟩)
  | accept =>
    exact hs.frame ht (Nat.le_succ _) (fun i hi => Handles.add_values_lt hi _) (Or.inl rfl)

theorem kept_init (isServer : Bool) : (init isServer : StreamBooks κ χ ψ).Kept where
  named := Handles.named_init isServer
  fits := fun _ _ _ h => nomatch h
  openers := List.nodup_nil
  slots := fun _ _ h => nomatch h
  known := fun _ h => nomatch h
  held := fun _ h => nomatch h

/-- While every stream the engine opens finds its future, and no future that holds
the id of a stream is dropped, no stream is orphaned. -/
theorem opened_streams_end (T : Tquic κ) (configError : χ → Option ConnectError) (isServer : Bool)
    (s : StreamBooks κ χ ψ)
    (hs : Reach (step T configError) (KeepsStream T) (init isServer) s) : s.NoOrphan :=
  Kept.noOrphan (hs.invariant (fun _ _ _ hI hg hstep => kept_step hI hg hstep) (kept_init isServer))

/-- The stream is opened, the future returns both handles, and both are dropped. -/
def droppedRun : List (HandlesEvent Script Unit Unit) :=
  [.connect .unspecified "localhost" none, .process (.ok ⟨0, { opens := [0] }, none⟩),
    .callback 0 .onConnEstablished, .use 0 (.poll .recv), .use 1 (.openStream .bi),
    .use 2 (.poll .recv), .process (.error .done), .use 2 (.poll .recv), .use 4 .drop,
    .use 5 .drop, .process (.error .done), .process (.error .done)]

theorem opened_streams_end_dropped :
    ∃ s : StreamBooks Script Unit Unit,
      run (step Tquic.scripted fun _ => none) (init false) droppedRun = some s ∧
      s.opened = [⟨0, 0, .bi, 0⟩] ∧ s.ended = [(0, .send 0), (0, .recv 0)] ∧ s.NoOrphan := by
  obtain ⟨s, hrun, hopened, hended, hkeeps⟩ : ∃ s : StreamBooks Script Unit Unit,
      run (step Tquic.scripted fun _ => none) (init false) droppedRun = some s ∧
      s.opened = [⟨0, 0, .bi, 0⟩] ∧ s.ended = [(0, .send 0), (0, .recv 0)] ∧
      Along (step Tquic.scripted fun _ => none) (KeepsStream Tquic.scripted) (init false)
        droppedRun := by
    refine ⟨_, rfl, rfl, rfl, trivial, ?_, trivial, trivial, trivial, trivial, ?_, trivial, ?_, ?_,
      ?_, ?_, trivial⟩
    · intro _ _ _ _ _ _ _ _ hqueue
      cases hqueue
    · intro _ _ _ _ _ _ _ _ hqueue hslot hreply
      cases hqueue
      cases hslot
      cases hreply
      exact nofun
    · intro h self _ hh hv
      cases hh
      cases hv
    · intro h self _ hh hv
      cases hh
      cases hv
    · intro _ _ _ _ _ _ _ _ hqueue hslot hreply
      cases hqueue
      cases hslot
      cases hreply
    · intro _ _ _ _ _ _ _ _ hqueue hslot hreply
      cases hqueue
      cases hslot
      cases hreply
  exact ⟨s, hrun, hopened, hended,
    opened_streams_end Tquic.scripted (fun _ => none) false s (reach_of_along hrun hkeeps)⟩

/-- `open_bi` is polled once and dropped before its command is processed. -/
def orphanRun : List (HandlesEvent Script Unit Unit) :=
  [.connect .unspecified "localhost" none, .process (.ok ⟨0, { opens := [0] }, none⟩),
    .callback 0 .onConnEstablished, .use 0 (.poll .recv), .use 1 (.openStream .bi),
    .use 2 (.poll .recv), .use 2 .drop, .process (.error .done)]

theorem opened_stream_orphaned :
    ¬ ∀ s : StreamBooks Script Unit Unit,
      Reach (step Tquic.scripted fun _ => none) Any (init false) s → s.NoOrphan := by
  intro hall
  obtain ⟨s, hrun, hqueue, hopened, hended, ⟨slot, hslot, huid⟩, hnext, hzero, hone, htwo,
      hthree⟩ : ∃ s : StreamBooks Script Unit Unit,
        run (step Tquic.scripted fun _ => none) (init false) orphanRun = some s ∧
        s.sys.queue = [] ∧ s.opened = [⟨0, 0, .bi, 0⟩] ∧ s.ended = [] ∧
        (∃ slot, s.sys.slab 0 = some slot ∧ slot.uid = 0) ∧ s.sys.next = 4 ∧
        s.sys.values 0 = some ⟨some 0, .connecting ⟨none, some 0, .unspecified⟩⟩ ∧
        s.sys.values 1 = some ⟨some 0, .connection 0⟩ ∧
        s.sys.values 2 = none ∧ s.sys.values 3 = none :=
    ⟨_, rfl, rfl, rfl, rfl, ⟨_, rfl, rfl⟩, rfl, rfl, rfl, rfl, rfl⟩
  have hs := reach_any_of_run hrun
  have hnamed : s.sys.Named := hs.invariant (I := fun s => s.sys.Named)
    (fun _ _ _ hI _ hstep => Handles.named_step hI (step_sys hstep)) (Handles.named_init false)
  rcases hall s hs hqueue ⟨0, 0, .bi, 0⟩ (by simp [hopened]) slot hslot huid (.send 0)
    (.head _) with ⟨id, h, hh, howns⟩ | hmem
  · have hid : id < 4 := hnext ▸ hnamed id h hh
    obtain rfl | rfl | rfl | rfl : id = 0 ∨ id = 1 ∨ id = 2 ∨ id = 3 := by omega
    · rw [hzero] at hh
      cases hh
      exact howns
    · rw [hone] at hh
      cases hh
      exact howns
    · simp [htwo] at hh
    · simp [hthree] at hh
  · rw [hended] at hmem
    cases hmem

end StreamBooks

end TokioTquic
