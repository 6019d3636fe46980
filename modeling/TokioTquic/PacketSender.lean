import Mathlib.Data.List.Basic
import TokioTquic.Error

/-!
# `PacketSender`

`on_packets_send` hands a batch of packets to the UDP socket one by one. The
socket is a parameter: its state and what `try_send_to` answers for a packet.
-/

namespace TokioTquic
set_option autoImplicit false

universe u
variable {σ : Type u}

structure Packet where
  payload : Bytes
  dst : SocketAddr
  deriving DecidableEq

inductive SocketResult where
  | sent
  | wouldBlock
  | failed (text : String)
  deriving DecidableEq

structure SendReport where
  result : Except TquicError Nat
  sent : List Packet
  deriving DecidableEq

def sendLoop (trySendTo : σ → Packet → SocketResult × σ) (socket : σ) (count : Nat) :
    List Packet → SendReport
  | [] => ⟨.ok count, []⟩
  | pkt :: pkts =>
    match trySendTo socket pkt with
    | (.sent, socket) =>
      let report := sendLoop trySendTo socket (count + 1) pkts
      { report with sent := pkt :: report.sent }
    | (.wouldBlock, _) => ⟨.ok count, []⟩
    | (.failed text, _) => ⟨.error (.other ("send_to: " ++ text)), []⟩

def onPacketsSend (trySendTo : σ → Packet → SocketResult × σ) (socket : Option σ)
    (pkts : List Packet) : SendReport :=
  match socket with
  | none => ⟨.error .done, []⟩
  | some socket => sendLoop trySendTo socket 0 pkts

/-- The result tells how many packets of the batch went out. -/
structure Accounted (pkts : List Packet) (report : SendReport) : Prop where
  ordered : report.sent <+: pkts
  counted : ∀ n, report.result = .ok n → report.sent = pkts.take n ∧ n ≤ pkts.length
  failed : ∀ e, report.result = .error e → report.sent = []

/-- The first packet that does not go out meets a hard error. -/
def FailsAt (trySendTo : σ → Packet → SocketResult × σ) (socket : σ) : List Packet → Prop
  | [] => False
  | pkt :: pkts =>
    match trySendTo socket pkt with
    | (.sent, socket) => FailsAt trySendTo socket pkts
    | (.wouldBlock, _) => False
    | (.failed _, _) => True

def FailsMidway (trySendTo : σ → Packet → SocketResult × σ) (socket : σ) : List Packet → Prop
  | [] => False
  | pkt :: pkts =>
    match trySendTo socket pkt with
    | (.sent, socket) => FailsAt trySendTo socket pkts
    | _ => False

variable {trySendTo : σ → Packet → SocketResult × σ}

/-- The packets that went out are the first ones, as many as an `Ok` says; an error comes
exactly when the first packet that stays meets a hard error. -/
theorem sendLoop_spec (socket : σ) (count : Nat) (pkts : List Packet) :
    (sendLoop trySendTo socket count pkts).sent <+: pkts ∧
      (∀ n, (sendLoop trySendTo socket count pkts).result = .ok n →
        n = count + (sendLoop trySendTo socket count pkts).sent.length) ∧
      ((∃ e, (sendLoop trySendTo socket count pkts).result = .error e) ↔
        FailsAt trySendTo socket pkts) := by
  induction pkts generalizing socket count with
  | nil =>
    refine ⟨List.prefix_refl _, ?_, ?_⟩
    · intro n hn
      cases hn
      rfl
    · simp [sendLoop, FailsAt]
  | cons pkt pkts ih =>
    unfold sendLoop FailsAt
    split
    · rename_i socket' _
      obtain ⟨hfirst, hcount, hfails⟩ := ih socket' (count + 1)
      refine ⟨List.cons_prefix_cons.mpr ⟨rfl, hfirst⟩, ?_, hfails⟩
      intro n hn
      have hlen := hcount n hn
      simp only [List.length_cons]
      omega
    · refine ⟨List.nil_prefix, ?_, by simp⟩
      intro n hn
      cases hn
      rfl
    · refine ⟨List.nil_prefix, ?_, by simp⟩
      intro n hn
      cases hn

theorem sent_nil_iff (socket : σ) {pkts : List Packet} (h : FailsAt trySendTo socket pkts) :
    (sendLoop trySendTo socket 0 pkts).sent = [] ↔ ¬ FailsMidway trySendTo socket pkts := by
  cases pkts with
  | nil => exact h.elim
  | cons pkt pkts =>
    rcases hsend : trySendTo socket pkt with ⟨_ | _ | text, socket'⟩
    · simp only [FailsAt, hsend] at h
      simp [sendLoop, FailsMidway, hsend, h]
    · simp [FailsAt, hsend] at h
    · simp [sendLoop, FailsMidway, hsend]

theorem failsMidway_failsAt {socket : σ} {pkts : List Packet}
    (h : FailsMidway trySendTo socket pkts) : FailsAt trySendTo socket pkts := by
  cases pkts with
  | nil => exact h
  | cons pkt pkts =>
    rcases hsend : trySendTo socket pkt with ⟨_ | _ | text, socket'⟩
    · simpa [FailsMidway, FailsAt, hsend] using h
    · simp [FailsMidway, hsend] at h
    · simp [FailsAt, hsend]

/-- A batch is accounted for if and only if no hard error comes after a packet went out. -/
theorem packets_accounted_iff (trySendTo : σ → Packet → SocketResult × σ) (socket : Option σ)
    (pkts : List Packet) :
    Accounted pkts (onPacketsSend trySendTo socket pkts) ↔
      ∀ s ∈ socket, ¬ FailsMidway trySendTo s pkts := by
  cases socket with
  | none =>
    constructor
    · intro _ s hs
      cases hs
    · intro _
      refine ⟨List.nil_prefix, fun n hn => ?_, fun _ _ => rfl⟩
      cases hn
  | some s =>
    obtain ⟨hfirst, hcount, hfails⟩ := @sendLoop_spec _ trySendTo s 0 pkts
    constructor
    · intro h s' hs hmidway
      cases hs
      have hat := failsMidway_failsAt hmidway
      obtain ⟨e, he⟩ := hfails.mpr hat
      exact (sent_nil_iff s hat).mp (h.failed e he) hmidway
    · intro h
      refine ⟨hfirst, fun n hn => ?_, fun e he => ?_⟩
      · have hlen := hcount n hn
        rw [Nat.zero_add] at hlen
        rw [hlen]
        exact ⟨List.prefix_iff_eq_take.mp hfirst, hfirst.length_le⟩
      · exact (sent_nil_iff s (hfails.mp ⟨e, he⟩)).mpr (h s rfl)

def scriptedSend : List SocketResult → Packet → SocketResult × List SocketResult
  | [], _ => (.wouldBlock, [])
  | r :: rs, _ => (r, rs)

/-- The first of two packets goes out, the second meets a hard error, and the engine is
told of an error only. -/
theorem packet_out_unaccounted :
    ¬ ∀ (socket : List SocketResult) (pkts : List Packet),
      Accounted pkts (onPacketsSend scriptedSend (some socket) pkts) := by
  intro hall
  have h := hall [.sent, .failed "ENOBUFS"] [⟨[1], .unspecified⟩, ⟨[2], .unspecified⟩]
  exact List.cons_ne_nil _ _ (h.failed _ rfl)

end TokioTquic
