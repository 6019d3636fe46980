import TokioTquic.Operations

/-!
# The order of the commands

The two lists of commands are one queue: `order` has an entry for each command,
and nothing but a running callback keeps the bridge thread from the next one.
-/

namespace TokioTquic
open Async
set_option autoImplicit false

universe u v
variable {κ : Type u} {ρ : Type v}

theorem Bridge.process_length {T : Tquic κ} {b b' : Bridge κ ρ} {cmd : ConnCommand ρ}
    {reply : Option (ρ × Reply)} (h : b.process T = some (cmd, b', reply)) :
    b.queue.length = b'.queue.length + 1 := by
  rw [(process_some h).2.1, List.length_cons]

theorem Bridge.process_next {T : Tquic κ} {b : Bridge κ ρ} (htodo : b.todo = [])
    (hqueue : b.queue ≠ []) : ∃ x, b.process T = some x := by
  obtain ⟨cmd, queue, heq⟩ := List.exists_cons_of_ne_nil hqueue
  unfold process
  rw [htodo, heq]
  exact ⟨_, rfl⟩

namespace StreamIo

theorem process_length {T : Tquic κ} {s s' : StreamIo κ} (hstep : s.step T .process = some s') :
    s.bridge.queue.length = s'.bridge.queue.length + 1 := by
  obtain ⟨cmd, b, reply, hp, rfl, _⟩ := process_futures hstep
  exact Bridge.process_length hp

theorem step_length {T : Tquic κ} {s s' : StreamIo κ} {e : IoEvent κ}
    (hstep : s.step T e = some s') (he : e ≠ .process) :
    s.bridge.queue.length ≤ s'.bridge.queue.length := by
  cases e with
  | process => exact absurd rfl he
  | bridge e =>
    obtain ⟨b, hb, rfl⟩ := step_bridge hstep
    exact Nat.le_of_eq (congrArg List.length (Bridge.step_cn hb).1.symm)
  | call h buf =>
    obtain ⟨_, rfl⟩ := step_call hstep
    exact Nat.le_refl _
  | poll h =>
    obtain ⟨f, _, hpoll⟩ := step_poll hstep
    rcases (poll_future hpoll).2.2 with ⟨hsame, _⟩ | ⟨_, hsent, _⟩
    · rw [hsame]
    · rw [hsent, List.length_append]
      omega
  | drop h =>
    obtain ⟨f, _, hdrop⟩ := step_drop hstep
    rw [(drop_future hdrop).2.1]

end StreamIo

namespace Streams

theorem process_length {T : Tquic κ} {s s' : Streams κ} (hstep : s.step T .process = some s') :
    s.bridge.queue.length = s'.bridge.queue.length + 1 := by
  obtain ⟨cmd, b, reply, hp, rfl⟩ := step_process hstep
  obtain ⟨opens, opened, heq⟩ := deliver_frame { s with bridge := b } reply
  rw [heq]
  exact Bridge.process_length hp

theorem pollOpen_length {s s' : Streams κ} {id : Nat} {dir : Dir} {point : OpenPoint}
    (hstep : s.pollOpen id dir point = some s') :
    s.bridge.queue.length ≤ s'.bridge.queue.length := by
  unfold pollOpen at hstep
  split at hstep
  · split at hstep <;> cases hstep <;> exact Nat.le_refl _
  · cases hstep
    show s.bridge.queue.length ≤ (s.bridge.queue ++ [openCommand dir id]).length
    rw [List.length_append]
    omega
  · cases hstep
    exact Nat.le_refl _
  · cases hstep
    exact Nat.le_refl _
  · cases hstep

theorem bridge_length {T : Tquic κ} {s s' : Streams κ} {e : BridgeEvent κ}
    (hstep : s.step T (.bridge e) = some s') : s'.bridge.queue = s.bridge.queue := by
  obtain ⟨b, hb, rfl⟩ := step_bridge hstep
  rw [(recordCreated_frame { s with bridge := b } e).2]
  exact (Bridge.step_cn hb).1

theorem step_length {T : Tquic κ} {s s' : Streams κ} {e : StreamsEvent κ}
    (hstep : s.step T e = some s') (he : e ≠ .process) :
    s.bridge.queue.length ≤ s'.bridge.queue.length := by
  cases e with
  | process => exact absurd rfl he
  | bridge e => rw [bridge_length hstep]
  | accept id dir =>
    obtain ⟨_, rfl⟩ := step_accept hstep
    exact Nat.le_refl _
  | pollAccept id branch =>
    obtain ⟨f, _, hpoll⟩ := step_pollAccept hstep
    rw [(pollAccept_frame hpoll).2.2]
  | dropAccept id =>
    obtain ⟨f, _, hdrop⟩ := step_dropAccept hstep
    rw [(dropAccept_frame hdrop).2.2]
  | openStream dir =>
    cases hstep
    exact Nat.le_refl _
  | pollOpen id =>
    obtain ⟨f, _, hpoll⟩ := step_pollOpen hstep
    exact pollOpen_length hpoll
  | dropOpen id =>
    obtain ⟨f, _, hdrop⟩ := step_dropOpen hstep
    unfold dropOpen at hdrop
    split at hdrop <;> cases hdrop
    exact Nat.le_refl _

end Streams

namespace Operations

/-- `order` names the commands of both lists. -/
structure Merged (s : Operations κ) : Prop where
  io : s.order.count .io = s.io.bridge.queue.length
  streams : s.order.count .streams = s.streams.bridge.queue.length

theorem merged_moveIo {s : Operations κ} {io : StreamIo κ} {streams : Streams κ} (hs : s.Merged)
    (hio : s.io.bridge.queue.length ≤ io.bridge.queue.length)
    (hstreams : streams.bridge.queue = s.streams.bridge.queue) :
    (s.moveIo io streams).Merged where
  io := by
    show (s.order ++ _).count Lane.io = io.bridge.queue.length
    rw [List.count_append, List.count_replicate_self, hs.io]
    omega
  streams := by
    show (s.order ++ _).count Lane.streams = streams.bridge.queue.length
    rw [List.count_append, List.count_replicate, if_neg (by decide), hs.streams, hstreams]
    rfl

theorem merged_moveStreams {s : Operations κ} {streams : Streams κ} (hs : s.Merged)
    (hstreams : s.streams.bridge.queue.length ≤ streams.bridge.queue.length) :
    (s.moveStreams streams).Merged where
  io := by
    show (s.order ++ _).count Lane.io = s.io.bridge.queue.length
    rw [List.count_append, List.count_replicate, if_neg (by decide), hs.io]
    rfl
  streams := by
    show (s.order ++ _).count Lane.streams = streams.bridge.queue.length
    rw [List.count_append, List.count_replicate_self, hs.streams]
    omega

theorem merged_finish {T : Tquic κ} {s s' : Operations κ} {h : Half} {c : Completion}
    (hs : s.Merged) (hstep : s.finish T h c = some s') : s'.Merged := by
  unfold finish at hstep
  split at hstep
  · obtain ⟨io, hio, rfl⟩ := Option.map_eq_some_iff.mp hstep
    obtain ⟨hcount, hstreams⟩ := merged_moveIo hs (StreamIo.step_length hio nofun) rfl
    exact ⟨hcount, hstreams⟩
  · cases hstep
    exact ⟨hs.io, hs.streams⟩
  · cases hstep

theorem merged_process {T : Tquic κ} {s s' : Operations κ} (hs : s.Merged)
    (hstep : s.step T .process = some s') : s'.Merged := by
  obtain ⟨hcount, hstreams⟩ := hs
  simp only [step] at hstep
  split at hstep
  · cases hstep
  · rename_i order horder
    obtain ⟨io, hio, rfl⟩ := Option.map_eq_some_iff.mp hstep
    have hlen := StreamIo.process_length hio
    rw [horder, List.count_cons_self] at hcount
    rw [horder, List.count_cons_of_ne (by decide)] at hstreams
    have hnone : io.bridge.queue.length - s.io.bridge.queue.length = 0 := by omega
    constructor
    · show (order ++ List.replicate (io.bridge.queue.length - _) Lane.io).count Lane.io = _
      rw [hnone, List.replicate_zero, List.append_nil]
      show order.count Lane.io = io.bridge.queue.length
      omega
    · show (order ++ List.replicate (io.bridge.queue.length - _) Lane.io).count Lane.streams = _
      rw [hnone, List.replicate_zero, List.append_nil]
      exact hstreams
  · rename_i order horder
    obtain ⟨streams, hstep', rfl⟩ := Option.map_eq_some_iff.mp hstep
    have hlen := Streams.process_length hstep'
    rw [horder, List.count_cons_of_ne (by decide)] at hcount
    rw [horder, List.count_cons_self] at hstreams
    have hnone : streams.bridge.queue.length - s.streams.bridge.queue.length = 0 := by omega
    constructor
    · show (order ++ List.replicate (streams.bridge.queue.length - _) Lane.streams).count _ = _
      rw [hnone, List.replicate_zero, List.append_nil]
      exact hcount
    · show (order ++ List.replicate (streams.bridge.queue.length - _) Lane.streams).count _ = _
      rw [hnone, List.replicate_zero, List.append_nil]
      show order.count Lane.streams = streams.bridge.queue.length
      omega

theorem merged_step {T : Tquic κ} {s s' : Operations κ} {e : OperationsEvent κ} (hs : s.Merged)
    (hstep : s.step T e = some s') : s'.Merged := by
  have hmove : ∀ {e : IoEvent κ} {io : StreamIo κ}, s.io.step T e = some io → e ≠ .process →
      (s.moveIo io s.streams).Merged :=
    fun hio he => merged_moveIo hs (StreamIo.step_length hio he) rfl
  cases e with
  | process => exact merged_process hs hstep
  | bridge e =>
    simp only [step] at hstep
    split at hstep <;> cases hstep
    rename_i io streams hio hstreams
    exact merged_moveIo hs (StreamIo.step_length hio nofun) (Streams.bridge_length hstreams)
  | call h c =>
    simp only [step] at hstep
    split at hstep
    · split at hstep
      · obtain ⟨io, hio, rfl⟩ := Option.map_eq_some_iff.mp hstep
        obtain ⟨hcount, hstreams⟩ := hmove hio nofun
        exact ⟨hcount, hstreams⟩
      · cases hstep
        exact hs
    · cases hstep
  | poll h =>
    simp only [step] at hstep
    split at hstep
    · rename_i f io _ hio
      split at hstep
      · exact merged_finish (hmove hio nofun) hstep
      · cases hstep
        exact hmove hio nofun
    · cases hstep
  | drop h =>
    obtain ⟨io, hio, rfl⟩ := Option.map_eq_some_iff.mp hstep
    obtain ⟨hcount, hstreams⟩ := hmove hio nofun
    exact ⟨hcount, hstreams⟩
  | streams e =>
    simp only [step] at hstep
    split at hstep
    · cases hstep
    · cases hstep
    · rename_i hprocess _
      obtain ⟨streams, hstreams, rfl⟩ := Option.map_eq_some_iff.mp hstep
      exact merged_moveStreams hs (Streams.step_length hstreams hprocess)
  | closed id =>
    simp only [step] at hstep
    split at hstep <;> cases hstep
    exact ⟨hs.io, hs.streams⟩
  | pollClosed id =>
    simp only [step] at hstep
    split at hstep
    · cases hstep
      exact ⟨hs.io, hs.streams⟩
    · split at hstep <;> cases hstep <;> exact ⟨hs.io, hs.streams⟩
    · split at hstep <;> cases hstep
      exact ⟨hs.io, hs.streams⟩
    · cases hstep
  | dropClosed id =>
    simp only [step] at hstep
    split at hstep <;> cases hstep <;> exact ⟨hs.io, hs.streams⟩

theorem merged_reach {T : Tquic κ} {guard : Operations κ → OperationsEvent κ → Prop}
    {connId : Nat} {conn : κ} {remoteAddr : SocketAddr} {isServer : Bool} {s : Operations κ}
    (hs : Reach (step T) guard (init connId conn remoteAddr isServer) s) : s.Merged :=
  hs.invariant (fun _ _ _ hI _ hstep => merged_step hI hstep) ⟨rfl, rfl⟩

/-- In every run the thread can take a command whenever there is one and no callback
is running. -/
theorem process_ready {T : Tquic κ} {guard : Operations κ → OperationsEvent κ → Prop}
    {connId : Nat} {conn : κ} {remoteAddr : SocketAddr} {isServer : Bool} {s : Operations κ}
    (hreach : Reach (step T) guard (init connId conn remoteAddr isServer) s)
    (htodo : s.io.bridge.todo = [])
    (hqueue : s.io.bridge.queue ≠ [] ∨ s.streams.bridge.queue ≠ []) :
    ∃ s', s.step T .process = some s' := by
  have hs := merged_reach hreach
  have hne : s.order ≠ [] := by
    intro hnil
    have hio := hs.io
    have hstreams := hs.streams
    rw [hnil, List.count_nil] at hio hstreams
    rcases hqueue with h | h
    · exact h (List.length_eq_zero_iff.mp hio.symm)
    · exact h (List.length_eq_zero_iff.mp hstreams.symm)
  obtain ⟨lane, order, horder⟩ := List.exists_cons_of_ne_nil hne
  cases lane with
  | io =>
    have hsome : s.io.bridge.queue ≠ [] := by
      intro hnil
      have hcount := hs.io
      rw [horder, hnil, List.count_cons_self] at hcount
      cases hcount
    obtain ⟨x, hx⟩ := Bridge.process_next (T := T) htodo hsome
    simp only [step, horder, StreamIo.step, hx]
    exact ⟨_, rfl⟩
  | streams =>
    have hsome : s.streams.bridge.queue ≠ [] := by
      intro hnil
      have hcount := hs.streams
      rw [horder, hnil, List.count_cons_self] at hcount
      cases hcount
    have htodo' : s.streams.bridge.todo = [] := by
      rw [s.shared]
      exact htodo
    obtain ⟨x, hx⟩ := Bridge.process_next (T := T) htodo' hsome
    simp only [step, horder, Streams.step, hx]
    exact ⟨_, rfl⟩

end Operations

end TokioTquic
