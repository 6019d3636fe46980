import TokioTquic.ReadDelivery
import TokioTquic.WriteDelivery

/-!
# "No progress possible" between the bridge thread and the streams

`process_command` answers `Done` with the values `Ok(0)` and `Ok((empty, false))`,
and `read` and `write` take these values for `Done`. The engine has successes
that look the same.
-/

namespace TokioTquic
set_option autoImplicit false

universe u v
variable {κ : Type u} {ρ : Type v}

/-- `read` with buffer `buf` waits only on `Done`, and a success of the engine ends the
call with its bytes in the buffer, or with `None` when it is nothing but FIN. -/
structure ReadUnambiguous (stream : RecvStream) (buf : Bytes)
    (result : Except TquicError (Bytes × Bool))
    (pass : RecvStream × Bytes × Pass (Except ReadError (Option Nat))) : Prop where
  waits : pass.2.2 = .wait → result = .error .done
  completes : ∀ data fin, result = .ok (data, fin) →
    let data := data.take buf.length
    pass = ({ stream with allDataRead := stream.allDataRead || fin },
      data ++ buf.drop data.length,
      .ret (.ok (if data = [] ∧ fin = true then none else some data.length)))

structure WriteUnambiguous (result : Except TquicError Nat)
    (pass : Pass (Except WriteError Nat)) : Prop where
  waits : pass = .wait → result = .error .done
  completes : ∀ n, result = .ok n → pass = .ret (.ok n)

def EmptyRead (maxLen : Nat) (result : Except TquicError (Bytes × Bool)) : Prop :=
  ∃ data, result = .ok (data, false) ∧ data.take maxLen = []

theorem read_unambiguous_iff (stream : RecvStream) (buf : Bytes)
    (result : Except TquicError (Bytes × Bool)) :
    ReadUnambiguous stream buf result
      (stream.onReply buf (some (readReply buf.length (some result)))) ↔
        ¬ EmptyRead buf.length result := by
  constructor
  · rintro h ⟨data, rfl, hempty⟩
    have hwait : (stream.onReply buf (some (readReply buf.length (some (.ok (data, false)))))).2.2 =
        .wait := by
      simp [readReply, RecvStream.onReply, hempty]
    cases h.waits hwait
  · intro h
    rcases result with e | ⟨data, fin⟩
    · refine ⟨fun hwait => ?_, fun _ _ heq => by cases heq⟩
      cases e with
      | done => rfl
      | _ => cases hwait
    · have hdata : data.take buf.length ≠ [] ∨ fin = true := by
        cases fin with
        | false => exact Or.inl fun hempty => h ⟨data, rfl, hempty⟩
        | true => exact Or.inr rfl
      have hpass := RecvStream.onReply_data stream buf hdata
      constructor
      · intro hwait
        simp only [readReply, hpass] at hwait
        cases hwait
      · intro data' fin' heq
        cases heq
        simp only [readReply, hpass]
        by_cases hempty : data.take buf.length = []
        · simp [hempty, hdata.resolve_left fun hne => hne hempty]
        · simp [hempty]

theorem write_unambiguous_iff (result : Except TquicError Nat) :
    WriteUnambiguous result (SendStream.onReply (some (writeReply (some result)))) ↔
      result ≠ .ok 0 := by
  constructor
  · rintro h rfl
    cases h.waits rfl
  · intro h
    rcases result with e | n
    · refine ⟨fun hwait => ?_, fun _ heq => by cases heq⟩
      cases e with
      | done => rfl
      | _ => cases hwait
    · cases n with
      | zero => exact absurd rfl h
      | succ n =>
        refine ⟨fun hwait => (by cases hwait), fun m heq => ?_⟩
        cases heq
        rfl

/-- On a live connection, a request of `read` or `write` goes through `process_command`
and back without ambiguity unless the engine succeeds with nothing. -/
theorem sentinel_unambiguous_iff (T : Tquic κ) (conn : κ) (respond : ρ) :
    (∀ (stream : RecvStream) (buf : Bytes), ∃ reply,
      (processConnCommand T (some conn) (.streamRead stream.streamId buf.length respond)).2 =
          some (respond, .read reply) ∧
        (ReadUnambiguous stream buf (T.streamRead conn stream.streamId buf.length).1
            (stream.onReply buf (some reply)) ↔
          ¬ EmptyRead buf.length (T.streamRead conn stream.streamId buf.length).1)) ∧
    ∀ (stream : SendStream) (buf : Bytes), ∃ reply,
      (processConnCommand T (some conn) (.streamWrite stream.streamId buf false respond)).2 =
          some (respond, .written reply) ∧
        (WriteUnambiguous (T.streamWrite conn stream.streamId buf false).1
            (SendStream.onReply (some reply)) ↔
          (T.streamWrite conn stream.streamId buf false).1 ≠ .ok 0) :=
  ⟨fun stream buf => ⟨_, rfl, read_unambiguous_iff stream buf _⟩,
    fun _ _ => ⟨_, rfl, write_unambiguous_iff _⟩⟩

/-- An empty `write` to which the engine answers `Ok(0)` waits until the stream is
writable. -/
theorem empty_write_waits :
    ¬ ∀ (conn : Script) (stream : SendStream) (buf : Bytes), ∃ reply,
      (processConnCommand Tquic.scripted (some conn)
        (.streamWrite stream.streamId buf false ())).2 = some ((), .written reply) ∧
      WriteUnambiguous (Tquic.scripted.streamWrite conn stream.streamId buf false).1
        (SendStream.onReply (some reply)) := by
  intro hall
  obtain ⟨reply, hreply, hunambiguous⟩ := hall { writes := [.ok 0] } ⟨1, 4, false⟩ []
  cases hreply
  cases hunambiguous.waits rfl

end TokioTquic
