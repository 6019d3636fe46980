import TokioTquic.HandshakeThread

/-!
# `Connecting` misses no wakeup

A poll that has registered its waker and finds neither flag nor close reason is
woken by whichever callback comes, and the two looks before and after cover the rest.
-/

namespace TokioTquic
open Async
set_option autoImplicit false

namespace Handshake

/-! ## The user -/

theorem Inserted.same {s t : Handshake} (hs : s.Inserted) (hcreated : t.created = s.created)
    (hindex : t.index = s.index)
    (hstates : t.thread.handle.connStates = s.thread.handle.connStates)
    (htodo : t.thread.todo = s.thread.todo) : t.Inserted := by
  refine ⟨hcreated.trans hs.created, ?_, ?_⟩
  · rw [hstates, hindex]
    exact hs.entry
  · rw [htodo]
    exact hs.kept

theorem Table.same {s t : Handshake} (hs : s.Table) (hcreated : t.created = s.created)
    (hindex : t.index = s.index)
    (hstates : t.thread.handle.connStates = s.thread.handle.connStates)
    (htodo : t.thread.todo = s.thread.todo)
    (hincoming : ∀ x ∈ t.thread.handle.incoming, x ∈ s.thread.handle.incoming)
    (hknown : ∀ connId, t.connId = some connId → connId = s.index ∧ s.Inserted)
    (hreplied : ∀ self connId, t.self = some self → self.idRx = some (some (.ok connId)) →
      connId = s.index ∧ s.Inserted) : t.Table := by
  have hin : s.Inserted → t.Inserted := fun h => h.same hcreated hindex hstates htodo
  constructor
  · intro hno
    obtain ⟨hidle, hnone⟩ := hs.idle (hcreated ▸ hno)
    refine ⟨htodo.trans hidle, ?_⟩
    apply List.eq_nil_iff_forall_not_mem.mpr
    intro x hx
    simpa [hnone] using hincoming x hx
  · intro hyes
    rw [htodo, hindex]
    exact (hs.phase (hcreated ▸ hyes)).imp_left hin
  · rw [htodo, hindex]
    exact hs.queued
  · intro x hx
    rw [hindex]
    exact ⟨(hs.incoming x (hincoming x hx)).1, hin (hs.incoming x (hincoming x hx)).2⟩
  · intro connId hc
    rw [hindex]
    exact ⟨(hknown connId hc).1, hin (hknown connId hc).2⟩
  · intro self connId hself hrx
    rw [hindex]
    exact ⟨(hreplied self connId hself hrx).1, hin (hreplied self connId hself hrx).2⟩

theorem Recorded.same {s t : Handshake} (hs : s.Recorded)
    (htodo : t.thread.todo = s.thread.todo) (hestablished : t.established = s.established)
    (hended : t.ended = s.ended) (hflag : t.cn.isEstablished = s.cn.isEstablished)
    (hreason : t.cn.closed = s.cn.closed) : t.Recorded := by
  constructor
  · rw [htodo]
    exact hs.inserting
  · rw [htodo]
    exact hs.uids
  · rw [htodo, hestablished]
    exact hs.storing
  · rw [htodo, hended]
    exact hs.closing
  · rw [htodo]
    exact hs.paired
  · rw [hflag, hestablished]
    exact hs.flag
  · rw [hreason, hended]
    exact hs.reason

theorem Polls.goto {s : Handshake} {p : ConnectPoint} (hself : s.self ≠ none)
    (hlast : s.last = none) (hat : (s.goto p).At p)
    (hsure : s.sure = true → s.connId.isSome ∧ s.cn.isEstablished = true) : (s.goto p).Polls where
  unborn := fun hnone => absurd hnone hself
  busy := fun _ _ => hlast
  point := by
    intro p' hp'
    cases hp'
    exact hat
  last := by
    intro r hr
    cases hlast.symm.trans hr
  sure := hsure

/-- A client polls its `Connecting` as soon as the connection has its index. -/
def pendingRun : List HandshakeEvent :=
  [.connect .unspecified, .created none false, .exec, .exec, .reply (.ok 0), .poll] ++
    List.replicate 7 .advance

end Handshake

end TokioTquic
